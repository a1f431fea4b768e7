import SlickSim.Ledger.Prints
import SlickSim.Ledger.Reachable

/-!
# Credits and their history

In every reachable state the credits of a level are what the prints took from it
and no update of the level has accounted for since. A rebuilt book changes nothing
about them.
-/

set_option autoImplicit false

namespace SlickSim

open OrderBookL3 (Regresses)

/-- What the prints later than a time took from a level and no update of the level has
accounted for since. -/
def creditedQty (side : BookSide) (price : Int) : List VenueMark → Nat → Int
  | [], _ => 0
  | .print eventTime removed :: earlier, asOf =>
      creditedQty side price earlier asOf + if asOf < eventTime then removed side price else 0
  | .rebuilt :: earlier, asOf => creditedQty side price earlier asOf
  | .reconciled otherSide otherPrice time :: earlier, asOf =>
      creditedQty side price earlier
        (if side = otherSide ∧ price = otherPrice then max asOf time else asOf)

/-- What the prints later than a time took from a level since the book was rebuilt. -/
def removedSince (side : BookSide) (price : Int) (asOf : Nat) : List VenueMark → Int
  | [] => 0
  | .print eventTime removed :: earlier =>
      removedSince side price asOf earlier + if asOf < eventTime then removed side price else 0
  | .rebuilt :: _ => 0
  | .reconciled .. :: earlier => removedSince side price asOf earlier

def VenueMark.Takes : VenueMark → Prop
  | .print _ removed => ∀ side price, price ≠ nullPrice → 0 ≤ removed side price
  | _ => True

theorem removedSince_nonneg {log : List VenueMark} (taken : ∀ mark ∈ log, mark.Takes) (side : BookSide)
    {price : Int} (priced : price ≠ nullPrice) (asOf : Nat) : 0 ≤ removedSince side price asOf log := by
  induction log with
  | nil => exact le_rfl
  | cons mark earlier ih =>
      have below := ih fun other member => taken other (List.mem_cons_of_mem _ member)
      cases mark with
      | print eventTime removed =>
          have here : 0 ≤ removed side price := taken _ List.mem_cons_self side price priced
          unfold removedSince
          split <;> omega
      | rebuilt => exact le_rfl
      | reconciled => exact below

/-- The side a venue reports is one of the two. -/
def Input.Sided : Input → Prop
  | .coinbaseEvent event => event.side ≠ .unknownSide
  | .trades prints => ∀ trade ∈ prints, trade.side ≠ .unknownSide
  | _ => True

instance (input : Input) : Decidable input.Sided :=
  match input with
  | .coinbaseEvent _ => inferInstanceAs (Decidable (_ ≠ _))
  | .trades prints => inferInstanceAs (Decidable (∀ trade ∈ prints, trade.side ≠ .unknownSide))
  | .newOrder .. | .amend .. | .cancel .. | .level2Snapshot .. | .l2Snapshot .. | .l2Diff ..
  | .marketOrder .. | .marketTrade .. | .flushMarketEvents | .subscribe .. | .subscribeServed | .elsewhere .. =>
      isTrue trivial

namespace Exchange

variable {β : Type} {env : Environment} {config : SymbolConfig} {exchange after : Exchange β}
  {seqNum : Nat} {side : Side} {price : Int} {eventTime : Nat}

/-- The credits are what the history says they are. -/
structure CreditsKept (exchange : Exchange β) : Prop where
  positive : exchange.CreditsPositive
  held : ∀ side price, price ≠ nullPrice → ∀ asOf,
    exchange.heldCredit side price asOf = creditedQty side price exchange.venueLog asOf
  taken : ∀ mark ∈ exchange.venueLog, mark.Takes

namespace CreditsKept

theorem of_record (kept : exchange.CreditsKept) (same : after.creditRecord = exchange.creditRecord) :
    after.CreditsKept := by
  have sameCredit : after.tradedQtyCredit = exchange.tradedQtyCredit := congrArg Prod.fst same
  have sameLog : after.venueLog = exchange.venueLog := congrArg Prod.snd same
  constructor
  · unfold CreditsPositive
    rw [sameCredit]
    exact kept.positive
  · unfold heldCredit
    rw [sameCredit, sameLog]
    exact kept.held
  · rw [sameLog]
    exact kept.taken

theorem rebuilt (kept : exchange.CreditsKept) : (exchange.noteMark .rebuilt).CreditsKept :=
  ⟨kept.positive, kept.held, List.forall_mem_cons.mpr ⟨trivial, kept.taken⟩⟩

theorem reconciled (kept : exchange.CreditsKept) (known : side ≠ .unknownSide) :
    ((exchange.takeTradedQty side price eventTime).2.noteMark
      (.reconciled (toBookSide side) price eventTime)).CreditsKept := by
  obtain ⟨-, positive, sameLog, held⟩ := @takeTradedQty_held β exchange side price eventTime known
    kept.positive
  refine ⟨positive, ?_, List.forall_mem_cons.mpr ⟨trivial, sameLog ▸ kept.taken⟩⟩
  intro bookSide other real asOf
  refine (held bookSide other asOf).trans ((kept.held bookSide other real _).trans ?_)
  rw [← sameLog]
  rfl

variable [OrderBookL3 β]

theorem print {rested : Exchange β} {summaries : List TradeSummaryInfo} (kept : exchange.CreditsKept)
    (known : side ≠ .unknownSide) (same : rested.creditRecord = exchange.creditRecord)
    (tells : exchange.TakesWhatItTells side summaries rested) :
    (summaries.foldl (fun exchange summary => (exchange.creditTradedQty (oppositeSide side) summary.price
      summary.phantomQty eventTime).publishTradeSummary summary)
      (rested.notePrint exchange.book (MatchingEngine.sweptSide side) eventTime)).CreditsKept := by
  have stays := kept.of_record same
  have passive : oppositeSide side ≠ .unknownSide := by
    cases side <;> first | exact absurd rfl known | (rintro ⟨⟩)
  have swept : toBookSide (oppositeSide side) = MatchingEngine.sweptSide side := by
    cases side <;> first | exact absurd rfl known | rfl
  obtain ⟨positive, sameLog, held⟩ := @creditSummaries_held β
    (rested.notePrint exchange.book (MatchingEngine.sweptSide side) eventTime) (oppositeSide side) eventTime
    passive summaries tells.nonneg stays.positive
  have takes : ∀ bookSide other, other ≠ nullPrice → 0 ≤ if bookSide = MatchingEngine.sweptSide side then
      exchange.book.phantomQtyAt bookSide other - rested.book.phantomQtyAt bookSide other else 0 := by
    intro bookSide other real
    split <;> rename_i here
    · rw [here, ← tells.tallied other real]
      exact talliedQty_nonneg tells.nonneg other
    · exact le_rfl
  refine ⟨positive, ?_, sameLog ▸ List.forall_mem_cons.mpr ⟨takes, stays.taken⟩⟩
  intro bookSide other real asOf
  rw [held, sameLog, swept]
  show rested.heldCredit bookSide other asOf + _ = creditedQty bookSide other rested.venueLog asOf + _
  rw [stays.held bookSide other real]
  congr 1
  by_cases later : asOf < eventTime
  · rw [if_pos later]
    dsimp only
    by_cases here : bookSide = MatchingEngine.sweptSide side
    · rw [if_pos ⟨here, later⟩, if_pos here, tells.tallied other real, here]
    · rw [if_neg fun both => here both.1, if_neg here]
  · rw [if_neg fun both => later both.2, if_neg later]

/-! ## Level updates -/

theorem reconcilePhantomQty (kept : exchange.CreditsKept) (known : side ≠ .unknownSide)
    (targetQty : Int) (endEvent : Bool) :
    (exchange.reconcilePhantomQty side price targetQty eventTime seqNum endEvent).CreditsKept := by
  unfold Exchange.reconcilePhantomQty
  split
  · exact kept
  · have stays := @reconciled β exchange side price eventTime kept known
    refine stays.of_record ?_
    dsimp only
    simp only [apply_ite creditRecord, onBook_creditRecord, ite_self]

variable (env config) in
theorem applyPhantomLevelUpdate (kept : exchange.CreditsKept) (known : side ≠ .unknownSide)
    (price targetQty : Int) (eventTimeNs : Nat) :
    (exchange.applyPhantomLevelUpdate env config side price targetQty eventTimeNs).CreditsKept := by
  unfold Exchange.applyPhantomLevelUpdate
  split
  · split
    · exact kept
    · exact kept.of_record (by simp)
  · exact kept.reconcilePhantomQty known targetQty true

variable (env config) in
theorem removeL2Prices (known : side ≠ .unknownSide) (eventTimeNs : Nat) (prices : List Int)
    (kept : exchange.CreditsKept) :
    (exchange.removeL2Prices env config side eventTimeNs prices).CreditsKept := by
  induction prices generalizing exchange with
  | nil => exact kept
  | cons price rest ih =>
      exact ih ((kept.applyPhantomLevelUpdate env config known price 0 eventTimeNs).of_record rfl)

variable (env config) in
theorem changeL2Rows (known : side ≠ .unknownSide) (eventTimeNs : Nat) (rows : List L2Row)
    (kept : exchange.CreditsKept) :
    (exchange.changeL2Rows env config side eventTimeNs rows).CreditsKept := by
  induction rows generalizing exchange with
  | nil => exact kept
  | cons row rest ih =>
      exact ih ((kept.applyPhantomLevelUpdate env config known row.price row.qty eventTimeNs).of_record rfl)

variable (env config) in
theorem processL2Diff (kept : exchange.CreditsKept) (diff : L2Diff) :
    (exchange.processL2Diff env config diff).CreditsKept := by
  have removed : (exchange.removeL2Levels env config (diff.timeMs * oneMillisecondNs)
      diff.removed).CreditsKept := by
    unfold Exchange.removeL2Levels
    split
    · exact kept
    · exact removeL2Prices env config (by rintro ⟨⟩) _ _
        (removeL2Prices env config (by rintro ⟨⟩) _ _ kept)
  have bids := changeL2Rows env config (show Side.buy ≠ .unknownSide by rintro ⟨⟩)
    (diff.timeMs * oneMillisecondNs) diff.bids removed
  have changed := changeL2Rows env config (show Side.sell ≠ .unknownSide by rintro ⟨⟩)
    (diff.timeMs * oneMillisecondNs) diff.asks bids
  refine changed.of_record ?_
  unfold Exchange.processL2Diff
  dsimp only
  rw [onBook_creditRecord, finalizeL2Event_creditRecord, onBook_creditRecord]

/-! ## Prints and snapshots -/

variable (env config) in
theorem applyTrades (trades : List HyperliquidTrade) (sided : ∀ trade ∈ trades, trade.side ≠ .unknownSide)
    (inv : exchange.ledger.Represents .none) (kept : exchange.CreditsKept) :
    (exchange.applyTrades env config trades).CreditsKept := by
  induction trades generalizing exchange with
  | nil => exact kept
  | cons trade rest ih =>
      have run := @applyTrades_run β _ env .all exchange config [trade] inv
        fun _ _ _ _ _ _ _ _ _ _ _ => trivial
      have tells := restTimestamped_tells env config trade.side trade.price trade.qty
        (trade.timeMs * oneMillisecondNs) inv
      have first : (exchange.applyTrade env config trade).CreditsKept :=
        kept.print (sided trade List.mem_cons_self) (restTimestamped_creditRecord ..) tells
      exact ih (fun other member => sided other (List.mem_cons_of_mem _ member)) (run.represents inv) first

variable (env config) in
theorem dispatchEvent {event : CoinbaseEvent} (sided : event.side ≠ .unknownSide)
    (inv : exchange.ledger.Represents .none) (kept : exchange.CreditsKept) :
    (exchange.dispatchEvent env config event).CreditsKept := by
  have stamped : exchange.nextBookSeqNum.2.CreditsKept := kept.of_record rfl
  unfold Exchange.dispatchEvent
  dsimp only
  cases event.type with
  | levelUpdate =>
      dsimp only
      unfold dispatchLevelUpdate
      split
      · exact stamped
      · dsimp only
        refine of_record ?_ (bufferLevelRow_creditRecord ..)
        unfold placeVenueLevel
        split
        · exact stamped.of_record (by simp)
        · exact (stamped.reconcilePhantomQty sided event.qty event.flags.endEvent).of_record rfl
  | trade =>
      have tells := @restVenueQty_tells β _ env config exchange.nextBookSeqNum.2 exchange.nextBookSeqNum.1
        event.side event.price event.qty event.eventTime event.flags.endEvent inv
        (nextBookSeqNum_current exchange) event.qty_nonneg
      have printed := @print β exchange.nextBookSeqNum.2 event.side event.eventTime _ _ _ stamped sided
        (restVenueQty_creditRecord ..) tells
      exact printed.of_record (flushMarketDataCaches_creditRecord _)

end CreditsKept

theorem step_creditsKept [OrderBookL3 β] {input : Input} (sided : input.Sided)
    (inv : exchange.ledger.Represents .none) (kept : exchange.CreditsKept) :
    (exchange.step env config input).CreditsKept := by
  cases input with
  | newOrder header msg => exact kept.of_record (handleNewOrderRequest_creditRecord ..)
  | amend header msg => exact kept.of_record (handleModifyOrderRequest_creditRecord ..)
  | cancel header msg => exact kept.of_record (handleCancelOrderRequest_creditRecord ..)
  | level2Snapshot seqNum updates =>
      have cleared : ((exchange.onBook OrderBook.clearMDOrders).noteMark .rebuilt).CreditsKept :=
        (kept.of_record rfl : (exchange.onBook OrderBook.clearMDOrders).CreditsKept).rebuilt
      refine cleared.of_record ?_
      unfold step onLevel2Snapshot
      dsimp only
      split
      · exact applySnapshotRows_creditRecord ..
      · exact applySnapshotRows_creditRecord ..
  | coinbaseEvent event => exact kept.dispatchEvent env config sided inv
  | l2Snapshot snapshot =>
      have cleared : ((exchange.onBook OrderBook.clearMDOrders).noteMark .rebuilt).CreditsKept :=
        (kept.of_record rfl : (exchange.onBook OrderBook.clearMDOrders).CreditsKept).rebuilt
      refine cleared.of_record ?_
      unfold step processL2Snapshot
      simp
  | l2Diff diff => exact kept.processL2Diff env config diff
  | trades trades =>
      unfold step processTradesEvent
      dsimp only
      split
      · exact kept
      · exact (kept.applyTrades env config trades sided inv).of_record rfl
  | marketOrder event => exact kept.of_record (applyMarketOrder_creditRecord ..)
  | marketTrade event =>
      exact kept.of_record (publishTradeSummaries_creditRecord _ _)
  | flushMarketEvents =>
      refine kept.of_record ?_
      unfold step flushMarketEvents
      dsimp only
      split
      · exact flushMarketDataCaches_creditRecord _
      · rfl
  | subscribe level2 l2Book l2 => exact kept.of_record rfl
  | subscribeServed => exact kept.of_record rfl
  | elsewhere draws => exact kept.of_record rfl

theorem new_creditsKept (pool : Nat → Order) [OrderBookL3 β] (publishOrderUpdates : Bool) :
    (Exchange.new pool publishOrderUpdates : Exchange β).CreditsKept := by
  constructor
  · intro side price credit member
    rw [show ((Exchange.new pool publishOrderUpdates : Exchange β).tradedQtyCredit side).lookup price =
      none from rfl] at member
    cases member
  · intro side price _ asOf
    rfl
  · rintro _ ⟨⟩

theorem Reachable.creditsKept [OrderBookL3 β] {allowed : Exchange β → Input → Prop}
    (reachable : Reachable env config allowed exchange)
    (sided : ∀ exchange input, allowed exchange input → input.Sided) : exchange.CreditsKept := by
  induction reachable with
  | new pool publishOrderUpdates => exact new_creditsKept pool publishOrderUpdates
  | step earlier input admitted permitted ih =>
      exact step_creditsKept (sided _ _ permitted) earlier.represents.1 ih

end Exchange

end SlickSim
