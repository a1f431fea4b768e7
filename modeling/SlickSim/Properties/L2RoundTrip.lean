import SlickSim.Properties.L2Convergence
import SlickSim.Properties.LevelReconciliation

/-!
# A book and its differences, as the exchange follows them

A venue sends its book once and from then on what changed in it. Where no client orders
rest and nothing trades, the exchange mirrors that book: what it does with a difference
is a patch of the sorted table of levels, taken row by row.
-/

set_option autoImplicit false

namespace SlickSim

open MdPublisher (L2Levels L2Ordered computeL2Diff diffSide)
open OrderBookL3 (Regresses restingOrders)

/-! ## Books and messages -/

/-- `isPriceBetter` as an order of the prices of a side. -/
def PriceBetter (side : BookSide) (left right : Int) : Prop :=
  isPriceBetter side left right = true

instance (side : BookSide) : DecidableRel (PriceBetter side) := fun _ _ =>
  inferInstanceAs (Decidable (_ = true))

theorem priceBetter_buy : PriceBetter .buy = (· > ·) := by
  funext left right
  simp [PriceBetter, isPriceBetter]

theorem priceBetter_sell : PriceBetter .sell = (· < ·) := by
  funext left right
  simp [PriceBetter, isPriceBetter]

instance (side : BookSide) : IsStrictTotalOrder Int (PriceBetter side) := by
  cases side
  · rw [priceBetter_buy]
    infer_instance
  · rw [priceBetter_sell]
    infer_instance

/-- A book as a venue shows it. No level is priced with the sentinel that stands for no
price, which is not the value of any double. -/
structure VenueBook where
  bids : L2Levels
  asks : L2Levels
  ordered : L2Ordered (bids, asks)
  uncrossed : ∀ bid ∈ bids, ∀ ask ∈ asks, bid.1 < ask.1
  positive : ∀ level ∈ bids ++ asks, 0 < level.2
  priced : ∀ level ∈ bids ++ asks, level.1 ≠ nullPrice

namespace VenueBook

def levels (book : VenueBook) : BookSide → L2Levels
  | .buy => book.bids
  | .sell => book.asks

def prices (book : VenueBook) (side : BookSide) : List Int :=
  (book.levels side).map Prod.fst

theorem levels_ordered (book : VenueBook) (side : BookSide) :
    SortedPatch.Ordered (PriceBetter side) (book.levels side) := by
  cases side
  · rw [priceBetter_buy]
    exact book.ordered.1
  · rw [priceBetter_sell]
    exact book.ordered.2

theorem levels_positive (book : VenueBook) {side : BookSide} {level : Int × Int}
    (member : level ∈ book.levels side) : 0 < level.2 := by
  cases side
  · exact book.positive level (List.mem_append_left _ member)
  · exact book.positive level (List.mem_append_right _ member)

/-- No level can trade with the other side of its own book. -/
theorem levels_beyond (book : VenueBook) {side : BookSide} {price other : Int}
    (member : price ∈ book.prices side) (facing : other ∈ book.prices side.opposite) :
    beyondLimit side.opposite other price = true := by
  obtain ⟨level, isLevel, rfl⟩ := List.mem_map.mp member
  obtain ⟨against, isAgainst, rfl⟩ := List.mem_map.mp facing
  unfold beyondLimit isPriceBetterOrEqual
  cases side
  · have apart := book.uncrossed level isLevel against isAgainst
    have priced := book.priced level (List.mem_append_left _ isLevel)
    simp [priced, BookSide.opposite, apart]
  · have apart := book.uncrossed against isAgainst level isLevel
    have priced := book.priced level (List.mem_append_right _ isLevel)
    simp [priced, BookSide.opposite, apart]

/-- The book that is shown last. -/
def last (book : VenueBook) : List (Nat × VenueBook) → VenueBook
  | [] => book
  | (_, next) :: rest => next.last rest

end VenueBook

def L2Levels.qtyAt (levels : L2Levels) (price : Int) : Int :=
  (levels.lookup price).getD 0

/-- What stays of a side is what both books price. -/
theorem removeAt_diffSide (prev curr : L2Levels) (descendingIndex : Bool) :
    SortedPatch.removeAt (diffSide prev curr descendingIndex).2 prev =
      prev.filter fun level => decide (level.1 ∈ curr.map Prod.fst) := by
  apply SortedPatch.removeAt_eq_filter
  intro level index member
  rw [MdPublisher.mem_diffSide_removed descendingIndex member, decide_eq_false_iff_not]

/-- The rows of a message, whose numbers are written and read exactly. -/
def L2Levels.rows (levels : L2Levels) : List L2Row :=
  levels.map fun level => ⟨level.1, level.2⟩

def VenueBook.snapshotAt (book : VenueBook) (timeMs : Nat) : L2Snapshot :=
  ⟨timeMs, L2Levels.rows book.bids, L2Levels.rows book.asks⟩

/-- The message of the difference between two books. -/
def VenueBook.diffAt (prev curr : VenueBook) (timeMs : Nat) : L2Diff :=
  let diff := computeL2Diff (prev.bids, prev.asks) (curr.bids, curr.asks)
  ⟨timeMs, some diff.removed, L2Levels.rows diff.changed.1, L2Levels.rows diff.changed.2⟩

def MDFrame.isTrade : MDFrame → Bool
  | .tradeSummary .. => true
  | _ => false

namespace Exchange

variable {β : Type} [OrderBookL3 β] {env : Environment} {config : SymbolConfig}
  {start exchange after : Exchange β} {side : Side} {price qty : Int} {table : BookSide → L2Levels}

/-- Takes each later book as the difference to the one before it. -/
def followL2Diffs (exchange : Exchange β) (env : Environment) (config : SymbolConfig) (book : VenueBook) :
    List (Nat × VenueBook) → Exchange β
  | [] => exchange
  | (timeMs, next) :: rest =>
      (exchange.processL2Diff env config (book.diffAt next timeMs)).followL2Diffs env config next rest

/-- Takes a book as a snapshot, and those after it as differences. -/
def followL2 (exchange : Exchange β) (env : Environment) (config : SymbolConfig) (timeMs : Nat)
    (book : VenueBook) (later : List (Nat × VenueBook)) : Exchange β :=
  (exchange.processL2Snapshot env config (book.snapshotAt timeMs)).followL2Diffs env config book later

/-! ## What one level update does -/

/-- A well-formed exchange with no client order, and no print to offset. -/
structure Untraded (exchange : Exchange β) : Prop where
  represents : exchange.ledger.Represents .none
  totalled : exchange.ledger.Totalled
  noOrders : exchange.book.orders = ∅
  noCredits : ∀ side price, (exchange.tradedQtyCredit side).lookup price = none

/-- From one exchange to the other nothing was filled: no report and no print. -/
structure FillFree (start exchange : Exchange β) : Prop where
  reports : exchange.matching.responses = start.matching.responses
  history : exchange.tradeHistory = start.tradeHistory
  frames : exchange.mdQueue.filter MDFrame.isTrade = start.mdQueue.filter MDFrame.isTrade

/-- The exchange shows the levels of a table, and came there without a fill. -/
structure Mirrors (start exchange : Exchange β) (table : BookSide → L2Levels) : Prop where
  untraded : exchange.Untraded
  unfilled : start.FillFree exchange
  prices : ∀ side, exchange.hyperliquid.l2RefLevels side = (table side).map Prod.fst
  quantities : ∀ side price, exchange.book.phantomQtyAt side price = L2Levels.qtyAt (table side) price

omit [OrderBookL3 β] in
theorem FillFree.refl (exchange : Exchange β) : exchange.FillFree exchange :=
  ⟨rfl, rfl, rfl⟩

omit [OrderBookL3 β] in
theorem FillFree.trans (first : start.FillFree exchange) (second : exchange.FillFree after) :
    start.FillFree after :=
  ⟨second.reports.trans first.reports, second.history.trans first.history, second.frames.trans first.frames⟩

namespace Untraded

theorem of_matching (untraded : exchange.Untraded) (sameMatching : after.matching = exchange.matching)
    (sameCredits : after.tradedQtyCredit = exchange.tradedQtyCredit) : after.Untraded := by
  have sameBook : after.book = exchange.book := congrArg MatchState.book sameMatching
  have sameLedger : after.ledger = exchange.ledger := congrArg MatchState.ledger sameMatching
  constructor
  · rw [sameLedger]
    exact untraded.represents
  · rw [sameLedger]
    exact untraded.totalled
  · rw [sameBook]
    exact untraded.noOrders
  · rw [sameCredits]
    exact untraded.noCredits

theorem foreign (untraded : exchange.Untraded) (id : Nat) : exchange.book.findOrder id = none := by
  unfold OrderBook.findOrder
  rw [untraded.noOrders, AList.lookup_empty]

theorem creditsPositive (untraded : exchange.Untraded) : exchange.CreditsPositive := by
  intro side price credit member
  rw [untraded.noCredits] at member
  cases member

/-- Whatever rests is a phantom, and shows in the quantity of its level. -/
theorem phantomQtyAt_pos (untraded : exchange.Untraded) {side : BookSide} {order : BookOrder}
    (member : order ∈ restingOrders exchange.book.l3 side) :
    0 < exchange.book.phantomQtyAt side order.price :=
  OrderBook.phantomQtyAt_pos untraded.represents member (untraded.foreign _)

end Untraded

/-- Setting one level to a quantity: every other level stays, and nothing is filled. -/
structure SetsLevel (exchange after : Exchange β) (side : BookSide) (price qty : Int) : Prop where
  untraded : after.Untraded
  unfilled : exchange.FillFree after
  mirror : after.hyperliquid = exchange.hyperliquid
  quantities : ∀ otherSide other, after.book.phantomQtyAt otherSide other =
    if side = otherSide ∧ price = other then qty else exchange.book.phantomQtyAt otherSide other

private theorem mayJoin_all {side : BookSide} {ranks : Ledger → Nat → Prop} :
    exchange.ledger.MayJoin .all side price ranks := by
  intro _ _ _ _ _ _
  trivial

variable (env config) in
/-- A level that rests without crossing is raised by what rests. -/
theorem restTimestamped_raises (untraded : exchange.Untraded) (eventTimeNs : Nat) (positive : 0 < qty)
    (clear : exchange.ledger.Beyond (toBookSide side).opposite price) :
    let rested := exchange.restTimestamped env config side price qty eventTimeNs
    rested.1 = [] ∧ exchange.SetsLevel rested.2 (toBookSide side) price
      (exchange.book.phantomQtyAt (toBookSide side) price + qty) := by
  have run := @restTimestamped_run β _ env .all exchange config side price qty eventTimeNs
    untraded.represents fun _ => mayJoin_all
  have quantities := restTimestamped_phantomQty env config eventTimeNs untraded.represents positive clear
  rw [restTimestamped_of_beyond env config eventTimeNs positive clear] at run quantities ⊢
  refine ⟨rfl, ⟨run.represents untraded.represents, run.micros.totalled untraded.represents
    untraded.totalled, ?_, untraded.noCredits⟩, ⟨rfl, rfl, rfl⟩, rfl, ?_⟩
  · exact (OrderBook.absorb_orders ..).trans untraded.noOrders
  · intro otherSide other
    rw [quantities]
    split <;> rename_i here
    · rw [here.1, here.2]
    · rw [add_zero]

theorem reducePhantoms_orders (book : OrderBook β) (price : Int) (eventTime seqNum : Nat) (endEvent : Bool)
    (reductions : List PhantomReduction) :
    (reducePhantoms book price eventTime seqNum endEvent reductions).orders = book.orders := by
  induction reductions generalizing book with
  | nil => rfl
  | cons reduction rest ih => exact (ih _).trans (OrderBook.absorb_orders ..)

/-- Without credits, an update of a level that is there changes the book alone. -/
theorem reconcilePhantomQty_book {level : PriceLevelL3} {eventTime : Nat}
    (found : OrderBookL3.getLevel exchange.book.l3 (toBookSide side) price = some level)
    (took : exchange.takeTradedQty side price eventTime = (0, exchange)) (targetQty : Int) (seqNum : Nat)
    (endEvent : Bool) :
    ∃ book : OrderBook β, exchange.reconcilePhantomQty side price targetQty eventTime seqNum endEvent =
        (exchange.noteMark (.reconciled (toBookSide side) price eventTime)).onBook (fun _ => book) ∧
      book.orders = exchange.book.orders := by
  unfold reconcilePhantomQty
  rw [found]
  dsimp only
  rw [took]
  dsimp only
  rw [if_neg (Int.lt_irrefl 0)]
  split
  · refine ⟨exchange.book.nextOrderId.addBookOrder _ _ _ _ _ _ _, rfl, ?_⟩
    exact OrderBook.addBookOrder_orders ..
  · split
    · refine ⟨reducePhantoms exchange.book _ _ _ _ _, rfl, ?_⟩
      exact reducePhantoms_orders ..
    · exact ⟨exchange.book, rfl, rfl⟩

variable (env config) in
/-- Bringing a level to a quantity sets it, whether it is there or not. -/
theorem applyPhantomLevelUpdate_sets (untraded : exchange.Untraded) (eventTimeNs : Nat)
    (known : side ≠ .unknownSide) (nonneg : 0 ≤ qty)
    (clear : exchange.ledger.Beyond (toBookSide side).opposite price) :
    exchange.SetsLevel (exchange.applyPhantomLevelUpdate env config side price qty eventTimeNs)
      (toBookSide side) price qty := by
  have free : exchange.LevelJoin .all side price qty eventTimeNs := by
    unfold LevelJoin
    split
    · exact fun _ _ => mayJoin_all
    · exact fun _ => mayJoin_all
  have run := applyPhantomLevelUpdate_run env config side price qty eventTimeNs untraded.represents free
  cases found : OrderBookL3.getLevel exchange.book.l3 (toBookSide side) price with
  | none =>
      have empty := phantomQtyAt_eq_zero found
      unfold applyPhantomLevelUpdate
      rw [found]
      dsimp only
      split <;> rename_i nothing
      · have zero : qty = 0 := by omega
        refine ⟨untraded, .refl _, rfl, ?_⟩
        intro otherSide other
        split <;> rename_i here
        · rw [← here.1, ← here.2, empty, zero]
        · rfl
      · obtain ⟨silent, raised⟩ := restTimestamped_raises env config untraded eventTimeNs
          (by omega : 0 < qty) clear
        rw [silent]
        rw [empty, zero_add] at raised
        exact raised
  | some level =>
      have quantities := @reconcilePhantomQty_phantomQty β _ exchange 0 side price level qty eventTimeNs true
        untraded.represents untraded.totalled (fun stale => stale.1.false) untraded.creditsPositive
        (apart_of_beyond clear) found
      have took : exchange.takeTradedQty side price eventTimeNs = (0, exchange) := by
        unfold takeTradedQty
        rw [if_neg known]
        dsimp only
        rw [untraded.noCredits]
      have applied : exchange.applyPhantomLevelUpdate env config side price qty eventTimeNs =
          exchange.reconcilePhantomQty side price qty eventTimeNs 0 true := by
        unfold applyPhantomLevelUpdate
        rw [found]
      obtain ⟨book, isBook, sameOrders⟩ := reconcilePhantomQty_book found took qty 0 true
      rw [applied] at run ⊢
      rw [isBook] at run quantities ⊢
      refine ⟨⟨run.represents untraded.represents, run.micros.totalled untraded.represents
        untraded.totalled, sameOrders.trans untraded.noOrders, untraded.noCredits⟩, ⟨rfl, rfl, rfl⟩, rfl, ?_⟩
      intro otherSide other
      rw [quantities, took, Int.sub_zero, max_eq_right nonneg]

/-! ## Runs of rows -/

/-- The mirror and its prices: a level is put where the table puts its row. -/
theorem insertRefLevel_eq_put (side : BookSide) (row : Int × Int) (rows : L2Levels) :
    insertRefLevel side row.1 (rows.map Prod.fst) =
      (SortedPatch.put (PriceBetter side) row rows).map Prod.fst := by
  induction rows with
  | nil => rfl
  | cons head rest ih =>
      rw [List.map_cons]
      unfold insertRefLevel SortedPatch.put
      show (if PriceBetter side head.1 row.1 then _ else _) = _
      rcases trichotomous_of (PriceBetter side) head.1 row.1 with first | same | later
      · have different : row.1 ≠ head.1 := fun same => irrefl_of (PriceBetter side) _ (same ▸ first)
        rw [if_pos first, if_neg different, if_neg (asymm_of (PriceBetter side) first), ih, List.map_cons]
      · have notFirst : ¬ PriceBetter side head.1 row.1 := fun first =>
          irrefl_of (PriceBetter side) _ (same ▸ first)
        rw [if_neg notFirst, if_pos same, if_pos same.symm, List.map_cons, same]
      · have notFirst : ¬ PriceBetter side head.1 row.1 := asymm_of (PriceBetter side) later
        have different : head.1 ≠ row.1 := fun same => irrefl_of (PriceBetter side) _ (same ▸ later)
        rw [if_neg notFirst, if_neg different, if_neg different.symm, if_pos later, List.map_cons,
          List.map_cons]

namespace Mirrors

/-- What rests is priced like a row of the table. -/
theorem beyond (mirrors : start.Mirrors exchange table) {side : BookSide} {limit : Int}
    (clear : ∀ other ∈ (table side).map Prod.fst, beyondLimit side other limit = true) :
    exchange.ledger.Beyond side limit := by
  apply MatchState.beyond_of_queue
  intro order member
  have shows := mirrors.untraded.phantomQtyAt_pos member
  rw [mirrors.quantities, L2Levels.qtyAt] at shows
  cases found : (table side).lookup order.price with
  | none =>
      rw [found] at shows
      cases shows
  | some qty =>
      obtain ⟨front, back, isTable, -⟩ := List.lookup_eq_some_iff.mp found
      refine clear order.price (List.mem_map.mpr ⟨(order.price, qty), ?_, rfl⟩)
      rw [isTable]
      exact List.mem_append_right _ List.mem_cons_self

/-- A level that is set, and mirrored, is a row that is set. -/
theorem sets (mirrors : start.Mirrors exchange table) {bookSide : BookSide}
    (sets : exchange.SetsLevel after bookSide price qty) (rows : L2Levels)
    (quantities : ∀ other, L2Levels.qtyAt rows other =
      if price = other then qty else L2Levels.qtyAt (table bookSide) other) :
    start.Mirrors (after.setRefLevels bookSide (rows.map Prod.fst)) (Function.update table bookSide rows) where
  untraded := sets.untraded.of_matching rfl rfl
  unfilled := mirrors.unfilled.trans ⟨sets.unfilled.reports, sets.unfilled.history, sets.unfilled.frames⟩
  prices := by
    intro side
    show Function.update after.hyperliquid.l2RefLevels bookSide _ side = _
    by_cases here : side = bookSide
    · subst here
      rw [Function.update_self, Function.update_self]
    · rw [Function.update_of_ne here, Function.update_of_ne here, sets.mirror, mirrors.prices]
  quantities := by
    intro side other
    show after.book.phantomQtyAt side other = _
    rw [sets.quantities, mirrors.quantities]
    by_cases here : side = bookSide
    · subst here
      rw [Function.update_self, quantities]
      simp only [true_and]
    · rw [Function.update_of_ne here, if_neg fun both => here both.1.symm]

variable (env config) in
theorem removeL2Prices (mirrors : start.Mirrors exchange table) (known : side ≠ .unknownSide)
    (eventTimeNs : Nat) (gone : List Int) (distinct : ((table (toBookSide side)).map Prod.fst).Nodup)
    (clear : ∀ price ∈ gone, ∀ other ∈ (table (toBookSide side).opposite).map Prod.fst,
      beyondLimit (toBookSide side).opposite other price = true) :
    start.Mirrors (exchange.removeL2Prices env config side eventTimeNs gone)
      (Function.update table (toBookSide side)
        ((table (toBookSide side)).filter fun row => decide (row.1 ∉ gone))) := by
  induction gone generalizing exchange table with
  | nil =>
      have same : (table (toBookSide side)).filter (fun row => decide (row.1 ∉ ([] : List Int))) =
          table (toBookSide side) := by simp
      rw [same, Function.update_eq_self]
      exact mirrors
  | cons price rest ih =>
      have removed := applyPhantomLevelUpdate_sets env config mirrors.untraded eventTimeNs known le_rfl
        (mirrors.beyond (clear price List.mem_cons_self))
      have erased : (exchange.hyperliquid.l2RefLevels (toBookSide side)).erase price =
          ((table (toBookSide side)).filter fun row => decide (row.1 ≠ price)).map Prod.fst := by
        rw [mirrors.prices, List.Nodup.erase_eq_filter distinct, List.filter_map]
        congr 1
        apply List.filter_congr
        intro row _
        rw [Bool.eq_iff_iff]
        simp
      have step := mirrors.sets removed
        ((table (toBookSide side)).filter fun row => decide (row.1 ≠ price)) ?_
      · unfold Exchange.removeL2Prices
        dsimp only
        rw [removed.mirror, erased]
        have opposite : (toBookSide side).opposite ≠ toBookSide side := BookSide.opposite_ne _
        have later := ih step ?_ ?_
        · rw [Function.update_self, Function.update_idem, List.filter_filter] at later
          have both : ((table (toBookSide side)).filter fun row => decide (row.1 ∉ price :: rest)) =
              (table (toBookSide side)).filter fun row =>
                decide (row.1 ∉ rest) && decide (row.1 ≠ price) := by
            apply List.filter_congr
            intro row _
            rw [Bool.eq_iff_iff]
            simp [and_comm]
          rw [both]
          exact later
        · rw [Function.update_self]
          exact distinct.sublist (List.filter_sublist.map _)
        · rw [Function.update_of_ne opposite]
          exact fun other member => clear other (List.mem_cons_of_mem _ member)
      · intro other
        unfold L2Levels.qtyAt
        rw [SortedPatch.lookup_filter_keys fun key => decide (key ≠ price)]
        by_cases here : price = other
        · simp [here]
        · simp [here, Ne.symm here]

variable (env config) in
theorem removeL2Indices (mirrors : start.Mirrors exchange table) (known : side ≠ .unknownSide)
    (eventTimeNs : Nat) (indices : List Nat) (distinct : ((table (toBookSide side)).map Prod.fst).Nodup)
    (clear : ∀ price ∈ (table (toBookSide side)).map Prod.fst,
      ∀ other ∈ (table (toBookSide side).opposite).map Prod.fst,
        beyondLimit (toBookSide side).opposite other price = true) :
    start.Mirrors (exchange.removeL2Indices env config side eventTimeNs indices)
      (Function.update table (toBookSide side) (SortedPatch.removeAt indices (table (toBookSide side)))) := by
  unfold Exchange.removeL2Indices
  dsimp only
  rw [mirrors.prices, SortedPatch.removeAt_eq_filter_keys distinct]
  refine mirrors.removeL2Prices env config known eventTimeNs _ distinct ?_
  intro price gone
  obtain ⟨index, -, found⟩ := List.mem_filterMap.mp gone
  exact clear price (List.mem_of_getElem? found)

variable (env config) in
theorem changeL2Rows (mirrors : start.Mirrors exchange table) (known : side ≠ .unknownSide)
    (eventTimeNs : Nat) (changed : L2Levels) (positive : ∀ row ∈ changed, 0 < row.2)
    (clear : ∀ row ∈ changed, ∀ other ∈ (table (toBookSide side).opposite).map Prod.fst,
      beyondLimit (toBookSide side).opposite other row.1 = true) :
    start.Mirrors (exchange.changeL2Rows env config side eventTimeNs (L2Levels.rows changed))
      (Function.update table (toBookSide side)
        (changed.foldl (fun rows row => SortedPatch.put (PriceBetter (toBookSide side)) row rows)
          (table (toBookSide side)))) := by
  induction changed generalizing exchange table with
  | nil =>
      rw [List.foldl_nil, Function.update_eq_self]
      exact mirrors
  | cons row rest ih =>
      have set := applyPhantomLevelUpdate_sets env config mirrors.untraded eventTimeNs known
        (positive row List.mem_cons_self).le (mirrors.beyond (clear row List.mem_cons_self))
      have step := mirrors.sets set (SortedPatch.put (PriceBetter (toBookSide side)) row
        (table (toBookSide side))) ?_
      · show start.Mirrors (Exchange.changeL2Rows _ env config side eventTimeNs (⟨row.1, row.2⟩ :: L2Levels.rows rest)) _
        unfold Exchange.changeL2Rows
        dsimp only
        rw [set.mirror, mirrors.prices, insertRefLevel_eq_put]
        have opposite : (toBookSide side).opposite ≠ toBookSide side := BookSide.opposite_ne _
        have later := ih step (fun other member => positive other (List.mem_cons_of_mem _ member)) ?_
        · rw [Function.update_self, Function.update_idem] at later
          exact later
        · rw [Function.update_of_ne opposite]
          exact fun other member => clear other (List.mem_cons_of_mem _ member)
      · intro other
        unfold L2Levels.qtyAt
        rw [SortedPatch.lookup_put]
        by_cases here : row.1 = other
        · rw [if_pos here, if_pos here.symm, Option.getD_some]
        · rw [if_neg here, if_neg (Ne.symm here)]

variable (env config) in
theorem applyL2Side (mirrors : start.Mirrors exchange table) (eventTimeNs : Nat) (levels : L2Levels)
    (positive : ∀ row ∈ levels, 0 < row.2)
    (distinct : ((table (toBookSide side) ++ levels).map Prod.fst).Nodup)
    (clear : ∀ row ∈ levels, ∀ other ∈ (table (toBookSide side).opposite).map Prod.fst,
      beyondLimit (toBookSide side).opposite other row.1 = true) :
    start.Mirrors (exchange.applyL2Side env config side eventTimeNs (L2Levels.rows levels))
      (Function.update table (toBookSide side) (table (toBookSide side) ++ levels)) := by
  induction levels generalizing exchange table with
  | nil =>
      rw [List.append_nil, Function.update_eq_self]
      exact mirrors
  | cons row rest ih =>
      have offered := positive row List.mem_cons_self
      obtain ⟨silent, raised⟩ := restTimestamped_raises env config mirrors.untraded eventTimeNs offered
        (mirrors.beyond (clear row List.mem_cons_self))
      have fresh : (table (toBookSide side)).lookup row.1 = none := by
        apply List.lookup_eq_none_iff.mpr
        intro earlier member
        rw [bne_iff_ne]
        rw [List.map_append, List.nodup_append] at distinct
        exact (distinct.2.2 earlier.1 (List.mem_map_of_mem member) row.1 List.mem_cons_self).symm
      rw [mirrors.quantities, L2Levels.qtyAt, fresh, Option.getD_none, zero_add] at raised
      have step := mirrors.sets raised (table (toBookSide side) ++ [row]) ?_
      · show start.Mirrors (Exchange.applyL2Side _ env config side eventTimeNs (⟨row.1, row.2⟩ :: L2Levels.rows rest)) _
        unfold Exchange.applyL2Side
        rw [if_neg (by dsimp only; omega)]
        dsimp only
        rw [silent]
        show start.Mirrors (Exchange.applyL2Side (setRefLevels (restTimestamped ..).2 _
          ((restTimestamped ..).2.hyperliquid.l2RefLevels _ ++ [row.1])) ..) _
        have appended : (exchange.restTimestamped env config side row.1 row.2 eventTimeNs).2.hyperliquid.l2RefLevels
            (toBookSide side) ++ [row.1] = (table (toBookSide side) ++ [row]).map Prod.fst := by
          rw [raised.mirror, mirrors.prices, List.map_append]
          rfl
        rw [appended]
        have opposite : (toBookSide side).opposite ≠ toBookSide side := BookSide.opposite_ne _
        have later := ih step (fun other member => positive other (List.mem_cons_of_mem _ member)) ?_ ?_
        · rw [Function.update_self, Function.update_idem, List.append_assoc] at later
          exact later
        · rw [Function.update_self, List.append_assoc]
          exact distinct
        · rw [Function.update_of_ne opposite]
          exact fun other member => clear other (List.mem_cons_of_mem _ member)
      · intro other
        unfold L2Levels.qtyAt
        rw [List.lookup_append, SortedPatch.lookup_cons_ite]
        by_cases here : row.1 = other
        · rw [if_pos here, ← here, fresh, if_pos rfl]
          rfl
        · rw [if_neg here, if_neg (Ne.symm here), List.lookup_nil, Option.or_none]

end Mirrors

/-! ## Messages -/

theorem populateL2Snapshot_fillFree : exchange.FillFree exchange.populateL2Snapshot := by
  refine ⟨rfl, rfl, ?_⟩
  unfold populateL2Snapshot
  rw [List.filter_append]
  exact List.append_nil _

theorem populateL2SubscriptionResponse_fillFree :
    exchange.FillFree exchange.populateL2SubscriptionResponse := by
  refine ⟨rfl, rfl, ?_⟩
  unfold populateL2SubscriptionResponse
  rw [List.filter_append]
  exact List.append_nil _

theorem finalizeL2Event_fillFree : exchange.FillFree exchange.finalizeL2Event := by
  have answered : ∀ (pending : Bool) (other : Exchange β),
      other.FillFree (if pending then other.populateL2SubscriptionResponse else other) := by
    intro pending other
    cases pending
    · exact .refl other
    · exact populateL2SubscriptionResponse_fillFree
  have waits := (answered exchange.hyperliquid.pendingL2Book exchange).trans
    (answered exchange.hyperliquid.pendingL2 _)
  unfold finalizeL2Event
  dsimp only
  split
  · refine FillFree.trans ?_ populateL2Snapshot_fillFree
    exact ⟨waits.reports, waits.history, waits.frames⟩
  · exact ⟨waits.reports, waits.history, waits.frames⟩

theorem finalizeL2Event_mirror :
    exchange.finalizeL2Event.hyperliquid.l2RefLevels = exchange.hyperliquid.l2RefLevels ∧
      exchange.finalizeL2Event.tradedQtyCredit = exchange.tradedQtyCredit := by
  unfold finalizeL2Event
  dsimp only
  split <;> split <;> split <;> exact ⟨rfl, rfl⟩

namespace Mirrors

theorem finalize (mirrors : start.Mirrors exchange table) (timestamp : Nat) :
    start.Mirrors (((exchange.onBook fun book => book.setLastUpdate timestamp 0).finalizeL2Event).onBook
      OrderBook.clearCaches) table := by
  have stamped : start.Mirrors (exchange.onBook fun book => book.setLastUpdate timestamp 0) table :=
    ⟨⟨mirrors.untraded.represents, mirrors.untraded.totalled, mirrors.untraded.noOrders,
      mirrors.untraded.noCredits⟩, ⟨mirrors.unfilled.reports, mirrors.unfilled.history,
      mirrors.unfilled.frames⟩, mirrors.prices, mirrors.quantities⟩
  generalize (exchange.onBook fun book => book.setLastUpdate timestamp 0) = middle at stamped
  obtain ⟨sameMirror, sameCredits⟩ := @finalizeL2Event_mirror β _ middle
  have untraded := stamped.untraded.of_matching finalizeL2Event_matching sameCredits
  have unfilled := stamped.unfilled.trans finalizeL2Event_fillFree
  have sameBook : middle.finalizeL2Event.book = middle.book :=
    congrArg MatchState.book finalizeL2Event_matching
  refine ⟨⟨untraded.represents, untraded.totalled, untraded.noOrders, untraded.noCredits⟩,
    ⟨unfilled.reports, unfilled.history, unfilled.frames⟩, ?_, ?_⟩
  · intro side
    show middle.finalizeL2Event.hyperliquid.l2RefLevels side = _
    rw [sameMirror, stamped.prices]
  · intro side price
    show middle.finalizeL2Event.book.phantomQtyAt side price = _
    rw [sameBook, stamped.quantities]

end Mirrors

theorem clearMDOrders_mirrors (untraded : exchange.Untraded) :
    exchange.Mirrors ((((exchange.onBook OrderBook.clearMDOrders).noteMark .rebuilt).setRefLevels .buy
      []).setRefLevels .sell []) fun _ => [] := by
  obtain ⟨clears, -⟩ := @clearMDOrders_run β _ (.counted fun _ => default) .all exchange
    untraded.represents
  have cleared : exchange.book.clearMDOrders.orders = ∅ ∧
      ∀ side, restingOrders exchange.book.clearMDOrders.l3 side = [] := by
    unfold OrderBook.clearMDOrders
    rw [untraded.noOrders]
    exact ⟨rfl, OrderBookL3.clear_restingOrders _⟩
  refine ⟨⟨clears.represents untraded.represents, clears.totalled untraded.represents untraded.totalled,
    cleared.1, untraded.noCredits⟩, ⟨rfl, rfl, rfl⟩, ?_, ?_⟩
  · intro side
    cases side <;> rfl
  · intro side price
    show exchange.book.clearMDOrders.phantomQtyAt side price = _
    unfold OrderBook.phantomQtyAt
    rw [cleared.2 side]
    rfl

variable (env config) in
theorem processL2Snapshot_mirrors (untraded : exchange.Untraded) (book : VenueBook) (timeMs : Nat) :
    exchange.Mirrors (exchange.processL2Snapshot env config (book.snapshotAt timeMs)) book.levels := by
  have cleared := clearMDOrders_mirrors untraded
  have bids := @Mirrors.applyL2Side β _ env config exchange _ .buy _ cleared (timeMs * oneMillisecondNs)
    book.bids (fun _ member => @VenueBook.levels_positive book .buy _ member)
    (book.levels_ordered .buy).nodup_keys (by rintro _ _ _ ⟨⟩)
  have asks := @Mirrors.applyL2Side β _ env config exchange _ .sell _ bids (timeMs * oneMillisecondNs)
    book.asks (fun _ member => @VenueBook.levels_positive book .sell _ member)
    (book.levels_ordered .sell).nodup_keys ?_
  · have shown := asks.finalize (timeMs * oneMillisecondNs)
    have same : book.levels = Function.update (Function.update (fun _ => []) .buy book.bids) .sell
        book.asks := by
      funext side
      cases side <;> rfl
    rw [same]
    exact shown
  · intro level member other facing
    exact @VenueBook.levels_beyond book .sell _ _ (List.mem_map_of_mem member) facing

namespace Mirrors

theorem of_table {other : BookSide → L2Levels} (mirrors : start.Mirrors exchange table)
    (same : table = other) : start.Mirrors exchange other :=
  same ▸ mirrors

variable (env config) in
/-- A difference takes the exchange from one book to the next: first what is gone leaves,
so that nothing new meets a level of the old book. -/
theorem processL2Diff {prev : VenueBook} (mirrors : start.Mirrors exchange prev.levels)
    (curr : VenueBook) (timeMs : Nat) :
    start.Mirrors (exchange.processL2Diff env config (prev.diffAt curr timeMs)) curr.levels := by
  have patched := fun side descending =>
    MdPublisher.diffSide_patch (PriceBetter side) descending (prev.levels_ordered side) (curr.levels_ordered side)
  have facesBids : ∀ other ∈ (SortedPatch.patch (PriceBetter .buy) (diffSide prev.bids curr.bids true).2
      (diffSide prev.bids curr.bids true).1 prev.bids).map Prod.fst, other ∈ curr.prices .buy := by
    have bidsPatched : SortedPatch.patch (PriceBetter .buy) (diffSide prev.bids curr.bids true).2
        (diffSide prev.bids curr.bids true).1 prev.bids = curr.bids := patched .buy true
    rw [bidsPatched]
    exact fun other member => member
  have stays : ∀ side descending, ∀ price ∈ (SortedPatch.removeAt
      (diffSide (prev.levels side) (curr.levels side) descending).2 (prev.levels side)).map Prod.fst,
      price ∈ prev.prices side ∧ price ∈ curr.prices side := by
    intro side descending price member
    rw [removeAt_diffSide] at member
    obtain ⟨level, isKept, rfl⟩ := List.mem_map.mp member
    obtain ⟨inside, known⟩ := List.mem_filter.mp isKept
    exact ⟨List.mem_map_of_mem inside, of_decide_eq_true known⟩
  have sent : ∀ side descending, ∀ row ∈ (diffSide (prev.levels side) (curr.levels side) descending).1,
      row ∈ curr.levels side := fun side descending row member => List.mem_of_mem_filter member
  have noBids := @removeL2Indices β _ env config start exchange .buy _ mirrors (by decide)
    (timeMs * oneMillisecondNs) (diffSide prev.bids curr.bids true).2 (prev.levels_ordered .buy).nodup_keys
    fun price member other facing => @VenueBook.levels_beyond prev .buy _ _ member facing
  have noAsks := @removeL2Indices β _ env config start _ .sell _ noBids (by decide)
    (timeMs * oneMillisecondNs) (diffSide prev.asks curr.asks false).2 (prev.levels_ordered .sell).nodup_keys
    fun price member other facing => @VenueBook.levels_beyond prev .sell _ _ member
      (stays .buy true other facing).1
  have bids := @changeL2Rows β _ env config start _ .buy _ noAsks (by decide)
    (timeMs * oneMillisecondNs) (diffSide prev.bids curr.bids true).1
    (fun row member => @VenueBook.levels_positive curr .buy _ (sent .buy true row member))
    fun row member other facing => @VenueBook.levels_beyond curr .buy _ _
      (List.mem_map_of_mem (sent .buy true row member)) (stays .sell false other facing).2
  have asks := @changeL2Rows β _ env config start _ .sell _ bids (by decide)
    (timeMs * oneMillisecondNs) (diffSide prev.asks curr.asks false).1
    (fun row member => @VenueBook.levels_positive curr .sell _ (sent .sell false row member))
    fun row member other facing => @VenueBook.levels_beyond curr .sell _ _
      (List.mem_map_of_mem (sent .sell false row member)) (facesBids other facing)
  have shown := asks.finalize (timeMs * oneMillisecondNs)
  refine shown.of_table ?_
  funext side
  cases side
  · exact patched .buy true
  · exact patched .sell false

variable (env config) in
theorem followL2Diffs {book : VenueBook} (mirrors : start.Mirrors exchange book.levels)
    (later : List (Nat × VenueBook)) :
    start.Mirrors (exchange.followL2Diffs env config book later) (book.last later).levels := by
  induction later generalizing exchange book with
  | nil => exact mirrors
  | cons next rest ih => exact ih (mirrors.processL2Diff env config next.2 next.1)

end Mirrors

/-! ## The positions of a difference -/

/-- Positions that name, once each, the levels of the old side which the new one lacks. -/
structure NamesGone (removed : List Nat) (prev curr : L2Levels) : Prop where
  inside : ∀ index ∈ removed, index < prev.length
  distinct : removed.Nodup
  gone : ∀ index level, prev[index]? = some level → (index ∈ removed ↔ level.1 ∉ curr.map Prod.fst)

theorem diffSide_removed_ascending (prev curr : L2Levels) :
    (diffSide prev curr false).2.Pairwise (· < ·) := by
  have positions : (prev.zipIdx.map Prod.snd).Pairwise (· < ·) := by
    rw [List.zipIdx_map_snd]
    exact List.pairwise_lt_range'
  exact positions.sublist (List.filter_sublist.map _)

/-- The bids are listed the other way round. -/
theorem diffSide_removed_descending (prev curr : L2Levels) :
    (diffSide prev curr true).2.Pairwise (· > ·) :=
  List.pairwise_reverse.mpr (diffSide_removed_ascending prev curr)

theorem diffSide_namesGone (prev curr : L2Levels) (descendingIndex : Bool) :
    NamesGone (diffSide prev curr descendingIndex).2 prev curr where
  inside := by
    intro index listed
    have inside : index ∈ prev.zipIdx.map Prod.snd := by
      unfold diffSide at listed
      cases descendingIndex
      · exact (List.filter_sublist.map _).subset listed
      · exact (List.filter_sublist.map _).subset (List.mem_reverse.mp listed)
    obtain ⟨⟨level, position⟩, member, rfl⟩ := List.mem_map.mp inside
    exact (List.getElem?_eq_some_iff.mp (List.mk_mem_zipIdx_iff_getElem?.mp member)).1
  distinct := by
    cases descendingIndex
    · exact (diffSide_removed_ascending prev curr).imp ne_of_lt
    · exact (diffSide_removed_descending prev curr).imp ne_of_gt
  gone := by
    intro index level found
    exact MdPublisher.mem_diffSide_removed descendingIndex (List.mk_mem_zipIdx_iff_getElem?.mpr found)

/-! ## The law -/

/-- However often a venue's book changes, the exchange that is sent it once and then the
differences shows the venue's last book, and fills nothing on the way. The positions of
removed levels name them in the book before, for bids also when they are taken out one
after the other. -/
theorem l2Diffs_follow (untraded : exchange.Untraded) (timeMs : Nat) (book : VenueBook)
    (later : List (Nat × VenueBook)) :
    ((∀ side, (exchange.followL2 env config timeMs book later).hyperliquid.l2RefLevels side =
          (book.last later).prices side) ∧
        (∀ side price, (exchange.followL2 env config timeMs book later).book.phantomQtyAt side price =
          L2Levels.qtyAt ((book.last later).levels side) price) ∧
        exchange.FillFree (exchange.followL2 env config timeMs book later)) ∧
      ∀ prev curr : VenueBook,
        let removed := (computeL2Diff (prev.bids, prev.asks) (curr.bids, curr.asks)).removed
        NamesGone removed.1 prev.bids curr.bids ∧ NamesGone removed.2 prev.asks curr.asks ∧
          SortedPatch.splice removed.1 prev.bids =
            some (prev.bids.filter fun level => decide (level.1 ∈ curr.bids.map Prod.fst)) := by
  have follows := (processL2Snapshot_mirrors env config untraded book timeMs).followL2Diffs env config later
  refine ⟨⟨follows.prices, follows.quantities, follows.unfilled⟩, ?_⟩
  intro prev curr
  have bids := diffSide_namesGone prev.bids curr.bids true
  refine ⟨bids, diffSide_namesGone prev.asks curr.asks false, ?_⟩
  rw [← removeAt_diffSide prev.bids curr.bids true]
  exact SortedPatch.splice_eq_removeAt (diffSide_removed_descending prev.bids curr.bids) bids.inside

theorem new_untraded (pool : Nat → Order) (publishOrderUpdates : Bool) :
    (new pool publishOrderUpdates : Exchange β).Untraded := by
  obtain ⟨represents, totalled⟩ := (Reachable.new pool publishOrderUpdates :
    Reachable (.counted fun _ => default) (.reference .cancelResting) ByLevel
      (new pool publishOrderUpdates : Exchange β)).represents
  exact ⟨represents, totalled, rfl, fun _ _ => rfl⟩

/-- A book with room between its sides. -/
def wideBook : VenueBook where
  bids := [(100, 5), (99, 3)]
  asks := [(104, 4), (105, 2)]
  ordered := ⟨by unfold SortedPatch.Ordered; decide, by unfold SortedPatch.Ordered; decide⟩
  uncrossed := by decide
  positive := by decide
  priced := by decide

/-- The whole spread has moved above the old asks, but for one of them. -/
private def risenBook : VenueBook where
  bids := [(104, 1)]
  asks := [(105, 6), (107, 2)]
  ordered := ⟨by unfold SortedPatch.Ordered; decide, by unfold SortedPatch.Ordered; decide⟩
  uncrossed := by decide
  positive := by decide
  priced := by decide

/-- A bid that comes where an ask was: nothing trades. -/
theorem l2Diffs_follow_risen :
    let exchange := (new (fun _ => default) true : Exchange ReferenceBook).followL2 (.counted fun _ => default)
      (.reference .cancelResting) 1 wideBook [(2, risenBook)]
    exchange.hyperliquid.l2RefLevels .buy = [104] ∧ exchange.book.phantomQtyAt .buy 104 = 1 ∧
      exchange.book.phantomQtyAt .sell 104 = 0 := by
  obtain ⟨⟨prices, quantities, -⟩, -⟩ := @l2Diffs_follow ReferenceBook _ (.counted fun _ => default)
    (.reference .cancelResting) _ (new_untraded (fun _ => default) true) 1 wideBook [(2, risenBook)]
  exact ⟨prices .buy, quantities .buy 104, quantities .sell 104⟩

end Exchange

end SlickSim
