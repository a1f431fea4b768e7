import SlickSim.Ledger.PhantomLevels

/-!
# What prints take and what is credited for them

A replayed print sweeps one side; its trade summaries say for each price how much
of what it took was phantom. Those quantities are the symbol's credits, and
`venueLog` is the history they are compared with.
-/

set_option autoImplicit false

namespace SlickSim

open OrderBookL3 (Regresses restingOrders)

/-! ## Trade summaries -/

/-- The phantom quantity the summaries report at a price. -/
def talliedQty (summaries : List TradeSummaryInfo) (price : Int) : Int :=
  (summaries.map fun summary => if summary.price = price then summary.phantomQty else 0).sum

theorem talliedQty_append (left right : List TradeSummaryInfo) (price : Int) :
    talliedQty (left ++ right) price = talliedQty left price + talliedQty right price := by
  unfold talliedQty
  rw [List.map_append, List.sum_append]

theorem talliedQty_nonneg {summaries : List TradeSummaryInfo}
    (nonneg : ∀ summary ∈ summaries, 0 ≤ summary.phantomQty) (price : Int) :
    0 ≤ talliedQty summaries price := by
  apply List.sum_nonneg
  intro qty member
  obtain ⟨summary, inside, rfl⟩ := List.mem_map.mp member
  split
  · exact nonneg summary inside
  · exact le_rfl

/-- The last summary is the one of the last fill price. -/
def MatchContext.Open (ctx : MatchContext) : Prop :=
  match ctx.summaries.getLast? with
  | none => ctx.lastFillPrice = nullPrice
  | some last => last.price = ctx.lastFillPrice

/-- The summaries account for what a sweep has taken from a side that had so much
phantom quantity at each price. -/
structure MatchContext.Accounts {β : Type} [OrderBookL3 β] (side : BookSide) (had : Int → Int)
    (ctx : MatchContext) (state : MatchState β) : Prop where
  isOpen : ctx.Open
  nonneg : ∀ summary ∈ ctx.summaries, 0 ≤ summary.phantomQty
  tallied : ∀ price, price ≠ nullPrice →
    state.book.phantomQtyAt side price + talliedQty ctx.summaries price = had price

namespace MatchState

variable {β : Type} {state : MatchState β} {ctx : MatchContext} {side : BookSide}
  {aggressorId bookOrderId : Nat} {price tradeQty phantomQty : Int}

/-- `recordTrade` adds the phantom part of a fill at its price. -/
theorem recordTrade_tallied (isOpen : ctx.Open)
    (nonneg : ∀ summary ∈ ctx.summaries, 0 ≤ summary.phantomQty) (positive : 0 ≤ phantomQty) :
    let next := (state.recordTrade ctx side aggressorId bookOrderId price tradeQty phantomQty).1
    next.Open ∧ (∀ summary ∈ next.summaries, 0 ≤ summary.phantomQty) ∧
      ∀ other, other ≠ nullPrice → talliedQty next.summaries other =
        talliedQty ctx.summaries other + if price = other then phantomQty else 0 := by
  unfold recordTrade
  split <;> rename_i fresh
  · refine ⟨by simp [MatchContext.Open], ?_, ?_⟩
    · intro summary member
      rcases List.mem_append.mp member with old | new
      · exact nonneg summary old
      · rw [List.mem_singleton.mp new]
        exact positive
    · intro other _
      rw [talliedQty_append]
      simp [talliedQty]
  · have same : ctx.lastFillPrice = price := not_ne_iff.mp fresh
    dsimp only
    unfold MatchContext.Open at isOpen
    cases last : ctx.summaries.getLast? with
    | none =>
        -- Nothing was filled yet, so the price is the one no order has.
        have empty : ctx.summaries = [] := List.getLast?_eq_none_iff.mp last
        rw [last] at isOpen
        refine ⟨by simp [MatchContext.Open, empty, isOpen], by simp [empty], ?_⟩
        intro other real
        have different : price ≠ other := by
          rw [← same, isOpen]
          exact real.symm
        simp [empty, different]
    | some summary =>
        rw [last] at isOpen
        have split := List.dropLast_append_getLast? summary last
        refine ⟨by simpa [MatchContext.Open, TradeSummaryInfo.addLeg] using isOpen, ?_, ?_⟩
        · intro other member
          rcases List.mem_append.mp member with old | new
          · exact nonneg other (List.dropLast_subset _ old)
          · have isNew : other = summary.addLeg bookOrderId tradeQty phantomQty := by simpa using new
            rw [isNew]
            have := nonneg summary (List.mem_of_getLast? last)
            show 0 ≤ summary.phantomQty + phantomQty
            omega
        · intro other _
          have before : talliedQty ctx.summaries other = talliedQty ctx.summaries.dropLast other +
              talliedQty [summary] other := by
            rw [← talliedQty_append, split]
          rw [talliedQty_append, before]
          have isPrice : summary.price = price := isOpen.trans same
          simp only [Option.map_some, Option.toList_some, talliedQty, TradeSummaryInfo.addLeg,
            List.map_cons, List.map_nil, List.sum_cons, List.sum_nil, isPrice]
          split <;> omega

variable [OrderBookL3 β]

/-- What a fill from the feed leaves in the context. -/
theorem fillRestingFromFeed_ctx {env : Environment} {qty left : Int} {ctx' : MatchContext}
    {state' : MatchState β}
    (filled : state.fillRestingFromFeed env ctx side aggressorId bookOrderId price tradeQty qty =
      (true, left, ctx', state')) :
    ∃ reported : MatchState β, ctx' = (reported.recordTrade ctx side aggressorId bookOrderId price
      tradeQty (if (state.book.findOrder bookOrderId).isSome then 0 else tradeQty)).1 := by
  unfold fillRestingFromFeed at filled
  dsimp only at filled
  split at filled
  · cases congrArg Prod.fst filled
  · exact ⟨_, (congrArg (fun result => result.2.2.1) filled).symm⟩

theorem accounts_keeps (env : Environment) (hand : Hand) (side : BookSide) (seqNum : Nat)
    (had : Int → Int) :
    FeedKeeps (β := β) env hand side seqNum (MatchContext.Accounts side had) := by
  intro ctx ctx' state state' resting qty remaining aggressorId ready member positive within filled takes
    accounts
  obtain ⟨reported, rfl⟩ := fillRestingFromFeed_ctx filled
  have phantomNonneg : 0 ≤ if (state.book.findOrder resting.orderId).isSome then 0 else qty := by
    split <;> omega
  obtain ⟨isOpen, nonneg, tallied⟩ := @recordTrade_tallied β reported ctx side aggressorId
    resting.orderId resting.price qty _ accounts.isOpen accounts.nonneg phantomNonneg
  refine ⟨isOpen, nonneg, ?_⟩
  intro price real
  rw [tallied price real, takes.phantomQtyAt ready.inv member, ← accounts.tallied price real]
  cases state.book.findOrder resting.orderId <;> simp

end MatchState

namespace Exchange

variable {β : Type} [OrderBookL3 β] {env : Environment} {config : SymbolConfig} {exchange : Exchange β}
  {seqNum : Nat}

private theorem matchFeed_tallied {side : Side} {orderId eventTime : Nat} {price qty : Int}
    {state : MatchState β} (inv : state.ledger.Represents .none)
    (current : ¬ Regresses state.book.l3 seqNum) :
    let matched := config.matchingEngine.matchFeed env side orderId price qty eventTime seqNum state
    (∀ summary ∈ matched.2.1, 0 ≤ summary.phantomQty) ∧
      ∀ other, other ≠ nullPrice → talliedQty matched.2.1 other =
        state.book.phantomQtyAt (MatchingEngine.sweptSide side) other -
          matched.2.2.book.phantomQtyAt (MatchingEngine.sweptSide side) other := by
  intro matched
  have start : MatchContext.Accounts (MatchingEngine.sweptSide side)
      (state.book.phantomQtyAt (MatchingEngine.sweptSide side)) (.start eventTime seqNum) state := by
    refine ⟨rfl, by rintro _ ⟨⟩, fun other _ => ?_⟩
    exact add_zero _
  obtain ⟨ctx, isSummaries, accounts⟩ := MatchingEngine.matchFeed_keeps side orderId price qty eventTime
    inv current (MatchState.accounts_keeps env .none _ seqNum _) start
  have isSummaries : ctx.summaries = matched.2.1 := isSummaries
  rw [← isSummaries]
  refine ⟨accounts.nonneg, fun other real => ?_⟩
  have tallied := accounts.tallied other real
  have tallied : matched.2.2.book.phantomQtyAt _ other + _ = _ := tallied
  omega

/-- The summaries of a replayed print say what it took from the side it swept. -/
structure TakesWhatItTells (exchange : Exchange β) (side : Side) (summaries : List TradeSummaryInfo)
    (after : Exchange β) : Prop where
  nonneg : ∀ summary ∈ summaries, 0 ≤ summary.phantomQty
  tallied : ∀ price, price ≠ nullPrice → talliedQty summaries price =
    exchange.book.phantomQtyAt (MatchingEngine.sweptSide side) price -
      after.book.phantomQtyAt (MatchingEngine.sweptSide side) price

variable (env config) in
theorem restVenueQty_tells (side : Side) (price : Int) {qty : Int} (eventTime : Nat) (isLast : Bool)
    (inv : exchange.ledger.Represents .none) (current : ¬ Regresses exchange.book.l3 seqNum)
    (nonneg : 0 ≤ qty) :
    let rested := exchange.restVenueQty env config side price qty eventTime seqNum isLast
    exchange.TakesWhatItTells side rested.2.1 rested.2.2 := by
  have ticks := @nextOrderId_run β _ env .all seqNum exchange current
  have tallied := @matchFeed_tallied β _ env config seqNum side exchange.book.globals.nextOrderId eventTime
    price qty (exchange.onBook OrderBook.nextOrderId).matching (ticks.represents inv) ticks.current
  obtain ⟨left, summaries, after, matched, -, least, -⟩ :=
    @matchFeed_run β _ env .all seqNum (exchange.onBook OrderBook.nextOrderId) config side
      exchange.book.globals.nextOrderId price qty eventTime (ticks.represents inv) ticks.current
  unfold restVenueQty
  dsimp only at tallied ⊢
  rw [matched] at tallied ⊢
  dsimp only at tallied ⊢
  split <;> rename_i some
  · refine ⟨tallied.1, fun other real => (tallied.2 other real).trans ?_⟩
    rw [MatchingEngine.sweptSide_eq]
    have unseen := @OrderBook.addL3Order_otherSide β _ (after.book.nextOrderPriority.noteDeclined
      (OrderBookL3.findOrder after.book.l3 exchange.book.globals.nextOrderId).isSome) seqNum eventTime
      (after.book.globals.nextPriority + 1) isLast exchange.book.globals.nextOrderId (toBookSide side)
      price left (by omega) other
    exact congrArg (_ - ·) unseen.symm
  · exact ⟨tallied.1, tallied.2⟩

variable (env config) in
theorem restTimestamped_tells (side : Side) (price qty : Int) (eventTimeNs : Nat)
    (inv : exchange.ledger.Represents .none) :
    let rested := exchange.restTimestamped env config side price qty eventTimeNs
    exchange.TakesWhatItTells side rested.1 rested.2 := by
  have ticks := @nextOrderId_run β _ env .all 0 exchange fun stale => stale.1.false
  have tallied := @matchFeed_tallied β _ env config 0 side exchange.book.globals.nextOrderId eventTimeNs
    price qty (exchange.onBook OrderBook.nextOrderId).matching (ticks.represents inv) ticks.current
  obtain ⟨left, summaries, after, matched, -⟩ :=
    @matchFeed_run β _ env .all 0 (exchange.onBook OrderBook.nextOrderId) config side
      exchange.book.globals.nextOrderId price qty eventTimeNs (ticks.represents inv) ticks.current
  unfold restTimestamped
  dsimp only at tallied ⊢
  rw [matched] at tallied ⊢
  dsimp only at tallied ⊢
  split <;> rename_i some
  · refine ⟨tallied.1, fun other real => (tallied.2 other real).trans ?_⟩
    rw [MatchingEngine.sweptSide_eq]
    have unseen := @OrderBook.addL3Order_otherSide β _ after.book 0 eventTimeNs 0 true
      exchange.book.globals.nextOrderId (toBookSide side) price left some other
    exact congrArg (_ - ·) unseen.symm
  · exact ⟨tallied.1, tallied.2⟩

/-! ## Credits -/

omit [OrderBookL3 β]

/-- The credits of a level for prints later than a time. -/
def heldCredit (exchange : Exchange β) (side : BookSide) (price : Int) (asOf : Nat) : Int :=
  (((((exchange.tradedQtyCredit side).lookup price).getD []).filter fun credit =>
    asOf < credit.eventTime).map TradedCredit.qty).sum

def CreditsPositive (exchange : Exchange β) : Prop :=
  ∀ side price, ∀ credit ∈ ((exchange.tradedQtyCredit side).lookup price).getD [], 0 < credit.qty

theorem CreditsPositive.heldCredit_nonneg (positive : exchange.CreditsPositive) (side : BookSide)
    (price : Int) (asOf : Nat) : 0 ≤ exchange.heldCredit side price asOf := by
  apply List.sum_nonneg
  intro qty member
  obtain ⟨credit, inside, rfl⟩ := List.mem_map.mp member
  exact (positive side price credit (List.mem_of_mem_filter inside)).le

private theorem addCredit_sum (qty : Int) (eventTime asOf : Nat) (credits : List TradedCredit) :
    (((addCredit qty eventTime credits).filter fun credit => asOf < credit.eventTime).map
        TradedCredit.qty).sum =
      ((credits.filter fun credit => asOf < credit.eventTime).map TradedCredit.qty).sum +
        if asOf < eventTime then qty else 0 := by
  induction credits with
  | nil => by_cases later : asOf < eventTime <;> simp [addCredit, later]
  | cons credit rest ih =>
      unfold addCredit
      by_cases same : credit.eventTime = eventTime
      · rw [if_pos same]
        by_cases later : asOf < eventTime
        · simp [same, later]
          omega
        · simp [same, later]
      · rw [if_neg same]
        by_cases held : asOf < credit.eventTime
        · rw [List.filter_cons_of_pos (by simpa using held), List.filter_cons_of_pos (by simpa using held),
            List.map_cons, List.map_cons, List.sum_cons, List.sum_cons, ih]
          omega
        · rw [List.filter_cons_of_neg (by simpa using held), List.filter_cons_of_neg (by simpa using held),
            ih]

private theorem addCredit_positive {qty : Int} (positive : 0 < qty) (eventTime : Nat)
    {credits : List TradedCredit} (each : ∀ credit ∈ credits, 0 < credit.qty) :
    ∀ credit ∈ addCredit qty eventTime credits, 0 < credit.qty := by
  induction credits with
  | nil =>
      intro credit member
      rw [List.mem_singleton.mp member]
      exact positive
  | cons first rest ih =>
      have firstPositive := each first List.mem_cons_self
      intro credit member
      unfold addCredit at member
      split at member
      · rcases List.mem_cons.mp member with rfl | later
        · show 0 < first.qty + qty
          omega
        · exact each credit (List.mem_cons_of_mem _ later)
      · rcases List.mem_cons.mp member with rfl | later
        · exact firstPositive
        · exact ih (fun other inside => each other (List.mem_cons_of_mem _ inside)) credit later

section Credit

variable {side : Side} {price qty : Int} {eventTime : Nat}

theorem creditTradedQty_held (known : side ≠ .unknownSide) (nonneg : 0 ≤ qty) (bookSide : BookSide)
    (other : Int) (asOf : Nat) :
    (exchange.creditTradedQty side price qty eventTime).heldCredit bookSide other asOf =
      exchange.heldCredit bookSide other asOf +
        if bookSide = toBookSide side ∧ asOf < eventTime then if price = other then qty else 0
        else 0 := by
  unfold creditTradedQty
  split <;> rename_i ignored
  · have nothing : qty = 0 := by
      rcases ignored with small | unknown
      · omega
      · exact absurd unknown known
    simp [nothing]
  · unfold heldCredit
    dsimp only
    by_cases here : bookSide = toBookSide side
    · subst here
      rw [Function.update_self]
      by_cases same : other = price
      · subst same
        rw [AList.lookup_insert, Option.getD_some, addCredit_sum]
        simp
      · rw [AList.lookup_insert_ne same]
        simp [Ne.symm same]
    · rw [Function.update_of_ne here]
      simp [here]

theorem creditTradedQty_positive (positive : exchange.CreditsPositive) :
    (exchange.creditTradedQty side price qty eventTime).CreditsPositive := by
  unfold creditTradedQty
  split <;> rename_i ignored
  · exact positive
  · intro bookSide other credit member
    dsimp only at member
    by_cases here : bookSide = toBookSide side
    · subst here
      rw [Function.update_self] at member
      by_cases same : other = price
      · subst same
        rw [AList.lookup_insert, Option.getD_some] at member
        exact addCredit_positive (by omega) eventTime (positive _ _) credit member
      · rw [AList.lookup_insert_ne same] at member
        exact positive _ _ credit member
    · rw [Function.update_of_ne here] at member
      exact positive _ _ credit member

/-- Crediting the summaries of a print adds what they tally. -/
theorem creditSummaries_held (known : side ≠ .unknownSide) {summaries : List TradeSummaryInfo}
    (nonneg : ∀ summary ∈ summaries, 0 ≤ summary.phantomQty) (positive : exchange.CreditsPositive) :
    let credited := summaries.foldl (fun exchange summary => (exchange.creditTradedQty side summary.price
      summary.phantomQty eventTime).publishTradeSummary summary) exchange
    credited.CreditsPositive ∧ credited.venueLog = exchange.venueLog ∧
      ∀ bookSide other asOf, credited.heldCredit bookSide other asOf =
        exchange.heldCredit bookSide other asOf +
          if bookSide = toBookSide side ∧ asOf < eventTime then talliedQty summaries other else 0 := by
  induction summaries generalizing exchange with
  | nil => exact ⟨positive, rfl, fun _ _ _ => by simp [talliedQty]⟩
  | cons summary rest ih =>
      obtain ⟨stillPositive, sameLog, held⟩ := @ih
        ((exchange.creditTradedQty side summary.price summary.phantomQty eventTime).publishTradeSummary
          summary) (fun other member => nonneg other (List.mem_cons_of_mem _ member))
        (show (exchange.creditTradedQty side summary.price summary.phantomQty eventTime).CreditsPositive
          from creditTradedQty_positive positive)
      refine ⟨stillPositive, sameLog.trans ?_, ?_⟩
      · show (exchange.creditTradedQty _ _ _ _).venueLog = _
        unfold creditTradedQty
        split <;> rfl
      · intro bookSide other asOf
        rw [List.foldl_cons, held]
        rw [show heldCredit (publishTradeSummary _ summary) bookSide other asOf =
          (exchange.creditTradedQty side summary.price summary.phantomQty eventTime).heldCredit bookSide
            other asOf from rfl, creditTradedQty_held known (nonneg summary List.mem_cons_self)]
        unfold talliedQty
        rw [List.map_cons, List.sum_cons]
        split <;> omega

/-- Taking the credits of a level returns the later ones and drops the others. -/
theorem takeTradedQty_held (known : side ≠ .unknownSide) (positive : exchange.CreditsPositive) :
    let took := exchange.takeTradedQty side price eventTime
    took.1 = exchange.heldCredit (toBookSide side) price eventTime ∧ took.2.CreditsPositive ∧
      took.2.venueLog = exchange.venueLog ∧
      ∀ bookSide other asOf, took.2.heldCredit bookSide other asOf =
        exchange.heldCredit bookSide other
          (if bookSide = toBookSide side ∧ other = price then max asOf eventTime else asOf) := by
  unfold takeTradedQty
  rw [if_neg known]
  dsimp only
  cases found : (exchange.tradedQtyCredit (toBookSide side)).lookup price with
  | none =>
      dsimp only
      refine ⟨by simp [heldCredit, found], positive, rfl, ?_⟩
      intro bookSide other asOf
      by_cases here : bookSide = toBookSide side ∧ other = price
      · obtain ⟨rfl, rfl⟩ := here
        simp [heldCredit, found]
      · rw [if_neg here]
  | some credits =>
      dsimp only
      generalize isKept : (credits.filter fun credit => eventTime < credit.eventTime) = kept
      generalize isByPrice : (if kept.isEmpty = true then
        (exchange.tradedQtyCredit (toBookSide side)).erase price
        else (exchange.tradedQtyCredit (toBookSide side)).insert price kept) = byPrice
      have here : (byPrice.lookup price).getD [] = kept := by
        rw [← isByPrice]
        split <;> rename_i empty
        · rw [AList.lookup_erase, Option.getD_none, List.isEmpty_iff.mp empty]
        · rw [AList.lookup_insert, Option.getD_some]
      have elsewhere : ∀ other, other ≠ price →
          byPrice.lookup other = (exchange.tradedQtyCredit (toBookSide side)).lookup other := by
        intro other different
        rw [← isByPrice]
        split
        · exact AList.lookup_erase_ne different
        · exact AList.lookup_insert_ne different
      refine ⟨by simp [heldCredit, found, isKept], ?_, rfl, ?_⟩
      · intro bookSide other credit member
        dsimp only at member
        by_cases sameSide : bookSide = toBookSide side
        · subst sameSide
          rw [Function.update_self] at member
          by_cases samePrice : other = price
          · subst samePrice
            rw [here, ← isKept] at member
            exact positive _ other credit (by rw [found]; exact List.mem_of_mem_filter member)
          · rw [elsewhere other samePrice] at member
            exact positive _ other credit member
        · rw [Function.update_of_ne sameSide] at member
          exact positive _ other credit member
      · intro bookSide other asOf
        unfold heldCredit
        dsimp only
        by_cases sameSide : bookSide = toBookSide side
        · subst sameSide
          rw [Function.update_self]
          by_cases samePrice : other = price
          · subst samePrice
            rw [here, if_pos ⟨rfl, rfl⟩, found, Option.getD_some, ← isKept, List.filter_filter]
            simp
          · rw [elsewhere other samePrice, if_neg fun both => samePrice both.2]
        · rw [Function.update_of_ne sameSide, if_neg fun both => sameSide both.1]

end Credit

/-! ## What leaves the credits alone -/

section Untouched

variable (exchange)

def creditRecord : (BookSide → AList (fun _ : Int => List TradedCredit)) × List VenueMark :=
  (exchange.tradedQtyCredit, exchange.venueLog)

@[simp] theorem onMatching_creditRecord (change : MatchState β → MatchState β) :
    (exchange.onMatching change).creditRecord = exchange.creditRecord := rfl

@[simp] theorem onBook_creditRecord (change : OrderBook β → OrderBook β) :
    (exchange.onBook change).creditRecord = exchange.creditRecord := rfl

@[simp] theorem clientIdFor_creditRecord (userId : Name) :
    (exchange.clientIdFor userId).2.creditRecord = exchange.creditRecord := by
  unfold clientIdFor
  split
  · rfl
  · split <;> rfl

@[simp] theorem flushMarketDataCaches_creditRecord :
    exchange.flushMarketDataCaches.creditRecord = exchange.creditRecord := by
  unfold flushMarketDataCaches
  dsimp only
  split <;> split <;> rfl

@[simp] theorem publishTradeSummaries_creditRecord (summaries : List TradeSummaryInfo) :
    (exchange.publishTradeSummaries summaries).creditRecord = exchange.creditRecord := by
  induction summaries generalizing exchange with
  | nil => rfl
  | cons summary rest ih => exact ih (exchange.publishTradeSummary summary)

@[simp] theorem setRefLevels_creditRecord (side : BookSide) (prices : List Int) :
    (exchange.setRefLevels side prices).creditRecord = exchange.creditRecord := rfl

variable [OrderBookL3 β] (env config)

@[simp] theorem populateL2Snapshot_creditRecord :
    exchange.populateL2Snapshot.creditRecord = exchange.creditRecord := rfl

@[simp] theorem restVenueQty_creditRecord (side : Side) (price qty : Int) (eventTime seqNum : Nat)
    (isLast : Bool) :
    (exchange.restVenueQty env config side price qty eventTime seqNum isLast).2.2.creditRecord =
      exchange.creditRecord := by
  unfold restVenueQty
  dsimp only
  split <;> rfl

@[simp] theorem restTimestamped_creditRecord (side : Side) (price qty : Int) (eventTimeNs : Nat) :
    (exchange.restTimestamped env config side price qty eventTimeNs).2.creditRecord =
      exchange.creditRecord := by
  unfold restTimestamped
  dsimp only
  split <;> rfl

@[simp] theorem finalizeL2Event_creditRecord :
    exchange.finalizeL2Event.creditRecord = exchange.creditRecord := by
  unfold finalizeL2Event
  dsimp only
  split <;> split <;> split <;> rfl

@[simp] theorem applyL2Side_creditRecord (side : Side) (eventTimeNs : Nat) (rows : List L2Row) :
    (exchange.applyL2Side env config side eventTimeNs rows).creditRecord = exchange.creditRecord := by
  induction rows generalizing exchange with
  | nil => rfl
  | cons row rest ih =>
      unfold applyL2Side
      split
      · exact ih exchange
      · dsimp only
        rw [ih]
        simp

@[simp] theorem applySnapshotRows_creditRecord (seqNum bookSeqNum : Nat) (updates : List Level2Update) :
    (exchange.applySnapshotRows env config seqNum bookSeqNum updates).creditRecord =
      exchange.creditRecord := by
  induction updates generalizing exchange with
  | nil => rfl
  | cons update rest ih =>
      unfold applySnapshotRows
      rw [ih]
      unfold applySnapshotRow
      dsimp only
      split <;> simp

@[simp] theorem bufferLevelRow_creditRecord (event : CoinbaseEvent) (hadLevel : Bool) (index : Nat)
    (action : MDUpdateAction) :
    (exchange.bufferLevelRow event hadLevel index action).creditRecord = exchange.creditRecord := by
  unfold bufferLevelRow
  dsimp only
  split
  · rfl
  · split <;> split <;> rfl

@[simp] theorem restMarketOrder_creditRecord (event : MarketOrderEvent) :
    (exchange.restMarketOrder env config event).creditRecord = exchange.creditRecord := by
  unfold restMarketOrder
  dsimp only
  split
  · rw [onBook_creditRecord, publishTradeSummaries_creditRecord]
    rfl
  · rw [publishTradeSummaries_creditRecord]
    rfl

theorem applyMarketOrder_creditRecord (event : MarketOrderEvent) :
    (exchange.applyMarketOrder env config event).creditRecord = exchange.creditRecord := by
  have marked : ∀ other : Exchange β, { other with marketChanged := true }.creditRecord = other.creditRecord :=
    fun _ => rfl
  unfold applyMarketOrder
  dsimp only
  rw [marked]
  cases event.action with
  | new => simp
  | delete => simp
  | change =>
      dsimp only
      split
      · split <;> simp
      · simp

theorem handleNewOrderRequest_creditRecord (header : RequestHeader) (msg : AddOrderMessage) :
    (exchange.handleNewOrderRequest env config header msg).creditRecord = exchange.creditRecord := by
  unfold handleNewOrderRequest
  split
  · rfl
  · split
    · rfl
    · dsimp only
      rw [flushMarketDataCaches_creditRecord]
      split
      · rw [onMatching_creditRecord, publishTradeSummaries_creditRecord]
        exact clientIdFor_creditRecord ..
      · rw [publishTradeSummaries_creditRecord]
        exact clientIdFor_creditRecord ..

theorem handleModifyOrderRequest_creditRecord (header : RequestHeader) (msg : ModifyOrderMessage) :
    (exchange.handleModifyOrderRequest env config header msg).creditRecord = exchange.creditRecord := by
  unfold handleModifyOrderRequest
  split
  · rfl
  · split
    · rfl
    · dsimp only
      rw [flushMarketDataCaches_creditRecord]
      split
      · rw [onMatching_creditRecord, onBook_creditRecord, publishTradeSummaries_creditRecord]
        rfl
      · rw [publishTradeSummaries_creditRecord]
        rfl

theorem handleCancelOrderRequest_creditRecord (header : RequestHeader) (msg : CancelOrderMessage) :
    (exchange.handleCancelOrderRequest env config header msg).creditRecord = exchange.creditRecord := by
  unfold handleCancelOrderRequest
  split
  · rfl
  · split
    · rfl
    · simp

end Untouched

end Exchange

end SlickSim
