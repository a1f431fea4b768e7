import SlickSim.Exchange.RequestReports
import SlickSim.Ledger.Bystanders
import SlickSim.Ledger.Performed
import SlickSim.Properties.NewOrderOutcome

/-!
# No trades of a client with itself

Under self-match prevention no fill has orders of one client on its two sides. Under
`CANCEL_RESTING` the own orders that an order comes to are cancelled, each with one report, and the
other own orders are left alone.
-/

set_option autoImplicit false

namespace SlickSim

open Sweeping
open OrderBookL3 (restingOrders)
open MatchingEngine (amendedQty sweptSide)

/-! ## What is told of one order -/

section Tells

variable {β : Type} {id : Nat} {told : List Nat} {first second third : MatchState β}

/-- No fill of the order is told, and these cancellations are. -/
structure TellsOf (id : Nat) (told : List Nat) (before after : MatchState β) : Prop where
  trades : after.trades.filter (fun trade => decide (trade.orderNum = id)) =
    before.trades.filter fun trade => decide (trade.orderNum = id)
  cancels : after.cancels.filter (fun number => decide (number = id)) =
    before.cancels.filter (fun number => decide (number = id)) ++ told

namespace TellsOf

theorem of_responses (same : second.responses = first.responses) : TellsOf id [] first second := by
  refine ⟨?_, ?_⟩
  · unfold MatchState.trades
    rw [same]
  · unfold MatchState.cancels
    rw [same, List.append_nil]

theorem before (left : TellsOf id [] first second) (right : TellsOf id told second third) :
    TellsOf id told first third :=
  ⟨right.trades.trans left.trades, by rw [right.cancels, left.cancels, List.append_nil]⟩

theorem after (left : TellsOf id told first second) (right : TellsOf id [] second third) :
    TellsOf id told first third :=
  ⟨right.trades.trans left.trades, by rw [right.cancels, left.cancels, List.append_nil]⟩

theorem of_report {response : OrderResponse} (published : second.responses = first.responses ++ [response])
    (elsewhere : response.orderNum ≠ id) : TellsOf id [] first second := by
  refine ⟨?_, ?_⟩
  · unfold MatchState.trades
    rw [published, List.filterMap_append, List.filter_append, List.append_right_eq_self]
    refine List.filter_eq_nil_iff.mpr fun trade member => ?_
    rw [List.mem_filterMap] at member
    obtain ⟨other, isOther, told⟩ := member
    rw [List.mem_singleton.mp isOther, OrderResponse.trade, Option.ite_none_right_eq_some] at told
    rw [← Option.some.inj told.2]
    simpa using elsewhere
  · unfold MatchState.cancels
    rw [published, List.filterMap_append, List.filter_append]
    refine congrArg _ (List.filter_eq_nil_iff.mpr fun number member => ?_)
    rw [List.mem_filterMap] at member
    obtain ⟨other, isOther, told⟩ := member
    rw [List.mem_singleton.mp isOther, OrderResponse.cancelled, Option.ite_none_right_eq_some] at told
    rw [← Option.some.inj told.2]
    simpa using elsewhere

variable [OrderBookL3 β]

/-- Acts tell of an order of the aggressor's own that they withdraw it, if they do. -/
theorem performs {aggressorId : Nat} {side : BookSide} {own : Nat → Bool} {acts : List (Act BookOrder)}
    {order : BookOrder} (run : MatchState.Performs (some aggressorId) side acts first second)
    (performable : MatchState.Performable side own acts first) (rests : first.ledger.entry order.orderId = some order)
    (mine : own order.orderId = true) (apart : aggressorId ≠ order.orderId) :
    TellsOf order.orderId (if .withdraw order ∈ acts then [order.orderId] else []) first second := by
  refine ⟨?_, ?_⟩
  · rw [run.trades, List.filter_append, List.append_right_eq_self, List.filter_eq_nil_iff]
    intro trade told
    obtain ⟨fill, isFill, told⟩ := List.mem_flatMap.mp told
    have foreign := (performable.fills _ _ (mem_fillsIn isFill)).1
    have different : fill.1.orderId ≠ order.orderId := by
      intro same
      rw [same, mine] at foreign
      cases foreign
    rw [fillTrades] at told
    rcases List.mem_append.mp told with aggressing | resting
    · obtain rfl : trade = _ := by simpa using aggressing
      simpa using apart
    · split at resting
      · obtain rfl : trade = _ := by simpa using resting
        simpa using different
      · cases resting
  · have once : ((withdrawn acts).map BookOrder.orderId).Nodup := by
      have sub := (withdrawn_items acts).map BookOrder.orderId
      rw [List.map_map] at sub
      exact sub.nodup performable.distinct
    have named : order.orderId ∈ (withdrawn acts).map BookOrder.orderId ↔ .withdraw order ∈ acts := by
      rw [List.mem_map, ← mem_withdrawn]
      constructor
      · rintro ⟨other, isWithdrawn, same⟩
        have found := MatchState.entry_of_mem (performable.rests _ (mem_withdrawn.mp isWithdrawn))
        rw [show (Act.withdraw other).item.orderId = order.orderId from same, rests] at found
        rwa [Option.some.inj found]
      · exact fun isWithdrawn => ⟨order, isWithdrawn, rfl⟩
    rw [run.cancels, List.filter_append]
    refine congrArg _ ?_
    rw [List.filter_eq]
    split <;> rename_i withdraws
    · rw [List.count_eq_one_of_mem once (named.mpr withdraws)]
      rfl
    · rw [List.count_eq_zero_of_not_mem fun inside => withdraws (named.mp inside)]
      rfl

end TellsOf

end Tells

/-! ## Matches -/

namespace OrderBook

variable {β : Type} [OrderBookL3 β]

/-- Self-match prevention withdraws a resting order that an order coming in reaches before its
quantity runs out. -/
def Withdraws (book : OrderBook β) (engine : MatchingEngine) (smpMode : SelfMatchPreventionMode) (incoming : Order)
    (limit qty leaves : Int) (resting : BookOrder) : Prop :=
  smpMode = .cancelResting ∧ ¬ MatchingEngine.CannotFill book smpMode incoming limit qty ∧
    engine.MeetsOwn (book.ownOrders smpMode incoming) (sweptSide incoming.side) limit
      (restingOrders book.l3 (sweptSide incoming.side)) leaves resting

end OrderBook

section Match

variable {β : Type} [OrderBookL3 β] {env : Environment} {ref : Nat} {limit qty leaves : Int}
  {smpMode : SelfMatchPreventionMode} {order : BookOrder} {state : MatchState β}

omit [OrderBookL3 β] in
private theorem present_tells (requestTime : Nat) {id : Nat} (apart : (state.order ref).id ≠ id) :
    TellsOf id [] state (state.present env ref limit qty requestTime) := by
  unfold MatchState.present
  split
  · exact .of_report rfl apart
  · let written := state.onBook fun book => book.updateOrder ref (Order.replace limit qty)
    have sameId : (written.order ref).id = (state.order ref).id := by
      rw [show written.order ref = (state.order ref).replace limit qty from Function.update_self ..]
      rfl
    have reports : TellsOf id [] written (written.publishOrderModify env ref limit qty requestTime) := by
      refine .of_report rfl ?_
      rw [OrderResponse.writeModify_orderNum, sameId]
      exact apart
    exact (show TellsOf id [] state written from .of_responses rfl).before reports

omit [OrderBookL3 β] in
private theorem remainder_tells (remaining : Int) (requestTime : Nat) {id : Nat} (apart : (state.order ref).id ≠ id) :
    TellsOf id [] state (state.cancelUnrestableRemainder env ref remaining requestTime) := by
  unfold MatchState.cancelUnrestableRemainder
  split
  · exact .of_report rfl apart
  · exact .of_responses rfl

/-- What a match tells of an order of the client's own: its cancellation, if it came to it. -/
theorem matchOrder_tells (engine : MatchingEngine) (env : Environment) (requestTime eventTime : Nat)
    (incoming : Incoming state ref limit qty leaves)
    (rests : state.ledger.entry order.orderId = some order)
    (mine : state.book.ownOrders smpMode (state.order ref) order.orderId = true)
    (apart : (state.order ref).id ≠ order.orderId) :
    ∃ told, TellsOf order.orderId told state
        (engine.matchOrder env ref limit qty requestTime eventTime 0 smpMode state).2.2 ∧
      (state.book.Withdraws engine smpMode (state.order ref) limit qty leaves order ∧ told = [order.orderId] ∨
        ¬ state.book.Withdraws engine smpMode (state.order ref) limit qty leaves order ∧ told = []) := by
  let acts := engine.orderPlan state ref limit leaves smpMode
  let presented := state.present env ref limit qty requestTime
  obtain ⟨_, ready⟩ := MatchingEngine.incoming_sweepable incoming
  have meets : .withdraw order ∈ acts ↔ engine.MeetsOwn (state.book.ownOrders smpMode (state.order ref))
      (sweptSide (state.order ref).side) limit (restingOrders state.book.l3 (sweptSide (state.order ref).side)) leaves
      order :=
    MatchingEngine.withdraw_mem_plan engine fun order member =>
      ready.inv.agrees.positive (MatchState.entry_of_mem member)
  have shows : TellsOf order.orderId [] state presented := present_tells requestTime apart
  have closes : TellsOf order.orderId [] state (presented.publishOrderCancel env ref requestTime) := by
    refine shows.before (.of_report rfl ?_)
    rw [OrderResponse.writeCancel_orderNum, MatchState.present_id]
    exact apart
  rw [engine.matchOrder_planned env requestTime eventTime smpMode incoming]
  unfold MatchingEngine.planned
  dsimp only
  split <;> rename_i refused
  · refine ⟨[], .of_responses rfl, .inr ⟨?_, rfl⟩⟩
    rintro ⟨resting, -⟩
    rw [resting] at refused
    cases refused.1
  split <;> rename_i cannot
  · exact ⟨[], closes, .inr ⟨fun withdraws => withdraws.2.1 cannot, rfl⟩⟩
  split <;> rename_i done
  · refine ⟨[], closes, .inr ⟨fun withdraws => ?_, rfl⟩⟩
    have planned := meets.mpr withdraws.2.2
    rw [show acts = [] from sweep_of_nonpos done.le] at planned
    cases planned
  by_cases more : 0 < leaves
  · obtain ⟨hand, ctx, after, shown, performs, -, -, run⟩ := engine.orderPlan_run env qty requestTime eventTime incoming
      more.le fun newest => by
        rw [← Bool.not_eq_true]
        exact fun withdraws => refused ⟨newest, withdraws⟩
    have sameId : (after.order ref).id = (state.order ref).id :=
      ((run.sweeps.takenFrom shown.ready.inv).terms ref).id.trans MatchState.present_id
    have shownRests : presented.ledger.entry order.orderId = some order :=
      (congrArg (fun l3 => OrderBookL3.findOrder l3 order.orderId) MatchState.present_l3).trans rests
    have ran : TellsOf order.orderId (if .withdraw order ∈ acts then [order.orderId] else []) presented after :=
      .performs run.performs (engine.orderPlan_performable shown) shownRests mine apart
    rw [performs]
    refine ⟨_, (shows.before ran).after (remainder_tells _ _ (by rw [sameId]; exact apart)), ?_⟩
    by_cases withdraws : .withdraw order ∈ acts
    · have resting : smpMode = .cancelResting := by
        cases smpMode with
        | none => cases mine
        | cancelResting => rfl
        | cancelNewest => exact absurd ⟨rfl, List.any_eq_true.mpr ⟨_, withdraws, rfl⟩⟩ refused
      rw [if_pos withdraws]
      exact .inl ⟨⟨resting, cannot, meets.mp withdraws⟩, rfl⟩
    · rw [if_neg withdraws]
      exact .inr ⟨fun reaches => withdraws (meets.mpr reaches.2.2), rfl⟩
  · have planned : acts = [] := sweep_of_nonpos (not_lt.mp more)
    rw [show engine.orderPlan state ref limit leaves smpMode = [] from planned]
    refine ⟨[], shows.before (remainder_tells _ _ (by rw [MatchState.present_id]; exact apart)), .inr ⟨?_, rfl⟩⟩
    intro reaches
    have inside := meets.mpr reaches.2.2
    rw [planned] at inside
    cases inside

private theorem modifyOrder_told {config : SymbolConfig} {newPrice newQty : Int} {requestTime : Nat}
    {reason : OrdRejectReason} {summaries : List TradeSummaryInfo} {between : MatchState β}
    (matched : config.matchingEngine.matchOrder env ref newPrice newQty requestTime (state.order ref).lastUpdateTime 0
      config.smpMode state = (reason, summaries, between)) :
    ∃ after, state.modifyOrder env config ref newPrice newQty requestTime = (reason, summaries, after) ∧
      after.responses = between.responses := by
  by_cases accepted : reason = .none
  · subst accepted
    exact ⟨_, MatchState.modifyOrder_accepted matched, MatchState.settleAmend_responses ..⟩
  · unfold MatchState.modifyOrder
    dsimp only
    rw [matched]
    dsimp only
    simp only [if_neg accepted]
    split
    · exact ⟨_, rfl, rfl⟩
    · exact ⟨_, rfl, rfl⟩

end Match

/-! ## Resting orders that are filled by nobody -/

theorem Order.FilledBy.trades {order between : Order} {reports : List OrderResponse}
    (fills : order.FilledBy reports between) (none : reports.filterMap OrderResponse.trade = []) :
    reports = [] ∧ between = order := by
  cases fills with
  | unfilled => exact ⟨rfl, rfl⟩
  | fill earlier positive within =>
      rw [List.filterMap_append, List.append_eq_nil_iff] at none
      cases none.2

private theorem filter_read {α : Type} {read : OrderResponse → Option α} {number : α → Nat}
    (numbered : ∀ {response value}, read response = some value → number value = response.orderNum) (id : Nat)
    (responses : List OrderResponse) :
    (responses.filterMap read).filter (fun value => decide (number value = id)) =
      (responses.filter fun response => decide (response.orderNum = id)).filterMap read := by
  rw [List.filter_filterMap, List.filterMap_filter]
  refine List.filterMap_congr fun response _ => ?_
  cases isRead : read response with
  | none => simp
  | some value =>
      rw [Option.filter_some, numbered isRead]

namespace Ledger

variable {β : Type} [OrderBookL3 β] {other : Nat} {told : List Nat} {before after : MatchState β}

private theorem reports_trades (state : MatchState β) (id : Nat) :
    state.trades.filter (fun trade => decide (trade.orderNum = id)) =
      (state.ledger.reports id).filterMap OrderResponse.trade := by
  refine filter_read (fun {response trade} isTrade => ?_) id state.responses
  rw [OrderResponse.trade, Option.ite_none_right_eq_some] at isTrade
  rw [← Option.some.inj isTrade.2]

private theorem reports_cancels (state : MatchState β) (id : Nat) :
    state.cancels.filter (fun number => decide (number = id)) =
      (state.ledger.reports id).filterMap OrderResponse.cancelled := by
  refine @filter_read Nat OrderResponse.cancelled (fun number => number) (fun {response number} isCancel => ?_) id
    state.responses
  rw [OrderResponse.cancelled, Option.ite_none_right_eq_some] at isCancel
  exact (Option.some.inj isCancel.2).symm

/-- Where no fill of a resting order is told, what matching made of it is told by at most a cancellation. -/
private theorem Served.untraded (served : Served other before.ledger after.ledger)
    (tells : TellsOf (before.order other).id told before after) :
    (told = [] ∧ after.ledger.reports (before.order other).id = before.ledger.reports (before.order other).id ∧
        after.order other = before.order other ∧
        (after.ledger.owner (before.order other).id = some other ∨ (after.order other).leavesQuantity = 0)) ∨
      ∃ report, told = [(before.order other).id] ∧ report.execType = .canceled ∧
        after.ledger.reports (before.order other).id = before.ledger.reports (before.order other).id ++ [report] ∧
        after.ledger.owner (before.order other).id = none := by
  have trades := tells.trades
  have cancels := tells.cancels
  rw [reports_trades, reports_trades] at trades
  rw [reports_cancels, reports_cancels] at cancels
  cases served with
  | @filled reported reports fills stays =>
      have reports : after.ledger.reports (before.order other).id =
          before.ledger.reports (before.order other).id ++ reported := reports
      rw [reports, List.filterMap_append, List.append_right_eq_self] at trades
      obtain ⟨rfl, same⟩ := fills.trades trades
      rw [List.append_nil] at reports
      rw [reports] at cancels
      exact .inl ⟨List.append_right_eq_self.mp cancels.symm, reports, same, stays.imp id And.right⟩
  | @cancelled reported between slot requestTime reports fills gone =>
      let report := slot.writeCancel between.withoutLeaves requestTime
      have reports : after.ledger.reports (before.order other).id =
          before.ledger.reports (before.order other).id ++ (reported ++ [report]) := reports
      rw [reports, List.filterMap_append, List.append_right_eq_self, List.filterMap_append, List.append_eq_nil_iff]
        at trades
      obtain ⟨rfl, same⟩ := fills.trades trades.1
      rw [reports, List.filterMap_append, List.append_cancel_left_eq] at cancels
      have sameId : [between.id] = [(before.order other).id] := congrArg (fun order => [Order.id order]) same
      exact .inr ⟨report, cancels.symm.trans sameId, rfl, reports, gone⟩

/-- A resting order that matching filled by nobody and did not cancel was left alone. -/
theorem Served.spared (served : Served other before.ledger after.ledger)
    (tells : TellsOf (before.order other).id [] before after) (inside : before.ledger.Registered other)
    (left : 0 < (before.order other).leavesQuantity) :
    before.ledger.LeavesAlone other (before.order other).id after.ledger := by
  rcases served.untraded tells with ⟨-, reports, order, stays⟩ | ⟨_, ⟨⟩, -⟩
  refine ⟨order, (stays.resolve_right ?_).trans inside.symm, reports⟩
  rw [order]
  exact left.ne'

/-- One that it filled by nobody and cancelled has one report more, and the maps no longer know it. -/
theorem Served.withdrawn {number : Nat} (served : Served other before.ledger after.ledger)
    (tells : TellsOf (before.order other).id [number] before after) :
    (∃ report, report.execType = .canceled ∧ after.ledger.reports (before.order other).id =
        before.ledger.reports (before.order other).id ++ [report]) ∧
      after.ledger.owner (before.order other).id = none := by
  rcases served.untraded tells with ⟨⟨⟩, -⟩ | ⟨report, -, isCancel, reports, gone⟩
  exact ⟨⟨report, isCancel, reports⟩, gone⟩

end Ledger

/-! ## Requests -/

theorem OrderBook.withdraws_congr {β : Type} [OrderBookL3 β] {before after : OrderBook β} {order order' : Order}
    {engine : MatchingEngine} {smpMode : SelfMatchPreventionMode} {limit qty leaves : Int} {resting : BookOrder}
    (l3 : after.l3 = before.l3)
    (same : ∀ id, isSelfMatch order' (after.resolve id) = isSelfMatch order (before.resolve id))
    (side : order'.side = order.side) (timeInForce : order'.timeInForce = order.timeInForce) :
    after.Withdraws engine smpMode order' limit qty leaves resting ↔
      before.Withdraws engine smpMode order limit qty leaves resting := by
  have own : after.ownOrders smpMode order' = before.ownOrders smpMode order := by
    funext id
    exact congrArg (decide (smpMode ≠ .none) && ·) (same id)
  unfold Withdraws MatchingEngine.CannotFill
  rw [canFillCompletely_congr l3 same, own, l3, side, timeInForce]

namespace Exchange

variable {β : Type} [OrderBookL3 β] {env : Environment} {config : SymbolConfig} {before after exchange : Exchange β}
  {incoming : Order} {limit qty leaves : Int} {header : RequestHeader}

/-- A resting order of the client that an order comes in for. -/
structure OwnResting (exchange : Exchange β) (incoming : Order) (other : Nat) : Prop where
  held : exchange.book.Holds other
  mine : isSelfMatch incoming (some (exchange.matching.order other)) = true
  apart : (exchange.matching.order other).id ≠ incoming.id

/-- A request had its order trade with no order of its own client. Of the client's resting orders it
cancelled those it reached before its quantity ran out, each with one report, and left the others alone. -/
structure SparesOwn (before after : Exchange β) (config : SymbolConfig) (incoming : Order) (limit qty leaves : Int) :
    Prop where
  untraded : ∀ report ∈ after.matching.responses.drop before.matching.responses.length, report.execType = .trade →
    report.orderNum ≠ incoming.id → isSelfMatch incoming (before.book.resolve report.orderNum) = false
  withdrawn : ∀ other, before.OwnResting incoming other →
    before.book.Withdraws config.matchingEngine config.smpMode incoming limit qty leaves
      (before.matching.order other).bookEntry →
    (∃ report, report.execType = .canceled ∧ after.reportsOn (before.matching.order other).id =
        before.reportsOn (before.matching.order other).id ++ [report]) ∧
      after.OutOfBook (before.matching.order other).id ∧ other ∉ after.book.live
  alone : ∀ other, before.OwnResting incoming other →
    ¬ before.book.Withdraws config.matchingEngine config.smpMode incoming limit qty leaves
      (before.matching.order other).bookEntry →
    after.reportsOn (before.matching.order other).id = before.reportsOn (before.matching.order other).id ∧
      after.matching.order other = before.matching.order other ∧
      after.book.findOrder (before.matching.order other).id = some other ∧
      OrderBookL3.findOrder after.book.l3 (before.matching.order other).id =
        some (before.matching.order other).bookEntry

private theorem sparesOwn_of (inv : before.ledger.Represents .none) (invAfter : after.ledger.Represents .none)
    {published : List OrderResponse} (isPublished : after.matching.responses = before.matching.responses ++ published)
    (identity : ∀ other, before.OwnResting incoming other →
      (after.matching.order other).id = (before.matching.order other).id)
    (each : ∀ other, before.OwnResting incoming other → Ledger.Served other before.ledger after.ledger ∧
      ∃ told, TellsOf (before.matching.order other).id told before.matching after.matching ∧
        (before.book.Withdraws config.matchingEngine config.smpMode incoming limit qty leaves
            (before.matching.order other).bookEntry ∧ told = [(before.matching.order other).id] ∨
          ¬ before.book.Withdraws config.matchingEngine config.smpMode incoming limit qty leaves
            (before.matching.order other).bookEntry ∧ told = [])) :
    before.SparesOwn after config incoming limit qty leaves := by
  have withdrawn : ∀ other, before.OwnResting incoming other →
      before.book.Withdraws config.matchingEngine config.smpMode incoming limit qty leaves
        (before.matching.order other).bookEntry →
      (∃ report, report.execType = .canceled ∧ after.reportsOn (before.matching.order other).id =
          before.reportsOn (before.matching.order other).id ++ [report]) ∧
        after.ledger.owner (before.matching.order other).id = none := by
    intro other own withdraws
    obtain ⟨served, told, tells, ⟨-, rfl⟩ | ⟨stays, -⟩⟩ := each other own
    · exact Ledger.Served.withdrawn served tells
    · exact absurd withdraws stays
  have alone : ∀ other, before.OwnResting incoming other →
      ¬ before.book.Withdraws config.matchingEngine config.smpMode incoming limit qty leaves
        (before.matching.order other).bookEntry →
      before.ledger.LeavesAlone other (before.matching.order other).id after.ledger := by
    intro other own stays
    have inside := (holds_number inv own.held).1
    obtain ⟨served, told, tells, ⟨withdraws, -⟩ | ⟨-, rfl⟩⟩ := each other own
    · exact absurd withdraws stays
    · exact Ledger.Served.spared served tells inside ((inv.agrees.at_ other).rests inside (by rintro ⟨⟩)).2.1
  refine ⟨?_, ?_, ?_⟩
  · intro report member trade apart
    rw [isPublished, List.drop_left] at member
    unfold OrderBook.resolve
    cases found : before.book.findOrder report.orderNum with
    | none => rfl
    | some other =>
        rw [Option.map_some, ← Bool.not_eq_true]
        intro mine
        have number : (before.matching.order other).id = report.orderNum :=
          inv.indexed.owner_id (show before.ledger.owner report.orderNum = some other from found)
        have own : before.OwnResting incoming other := ⟨⟨_, found⟩, mine, number ▸ apart⟩
        have inside : report ∈ published.filter fun response =>
            decide (response.orderNum = (before.matching.order other).id) :=
          List.mem_filter.mpr ⟨member, decide_eq_true number.symm⟩
        have reports : after.reportsOn (before.matching.order other).id =
            before.reportsOn (before.matching.order other).id ++ published.filter fun response =>
              decide (response.orderNum = (before.matching.order other).id) := by
          unfold reportsOn
          rw [isPublished, List.filter_append]
        by_cases withdraws : before.book.Withdraws config.matchingEngine config.smpMode incoming limit qty leaves
          (before.matching.order other).bookEntry
        · obtain ⟨⟨cancel, isCancel, cancelled⟩, -⟩ := withdrawn other own withdraws
          rw [List.append_cancel_left (reports.symm.trans cancelled)] at inside
          rw [List.mem_singleton.mp inside, isCancel] at trade
          cases trade
        · have same := (alone other own withdraws).reports
          rw [List.append_right_eq_self.mp (reports.symm.trans same)] at inside
          cases inside
  · intro other own withdraws
    obtain ⟨cancelled, gone⟩ := withdrawn other own withdraws
    obtain ⟨nonzero, report, isReport, number⟩ := inv.indexed.registered_owned (holds_number inv own.held).1
    have owned : after.ledger.Owned (before.matching.order other).id := by
      refine ⟨nonzero, report, ?_, number⟩
      rw [show after.ledger.responses = _ from isPublished]
      exact List.mem_append_left _ isReport
    refine ⟨cancelled, outOfBook_of_absent invAfter owned ⟨gone, by rintro _ ⟨⟩⟩, fun live => ?_⟩
    rcases invAfter.indexed.live_iff.mp live with inside | ⟨⟨⟩⟩
    have inside : after.ledger.owner (after.matching.order other).id = some other := inside
    rw [identity other own, gone] at inside
    cases inside
  · intro other own stays
    have kept := alone other own stays
    have inside : after.ledger.owner (before.matching.order other).id = some other :=
      kept.owner.trans (holds_number inv own.held).1
    have registered : after.ledger.Registered other := by
      show after.ledger.owner (after.ledger.heap other).id = some other
      rw [kept.heap]
      exact inside
    have rests := ((invAfter.agrees.at_ other).rests registered (by rintro ⟨⟩)).1
    rw [Ledger.entryOf, kept.heap] at rests
    exact ⟨kept.reports, kept.heap, inside, rests⟩

private theorem own_resolves (inv : exchange.ledger.Represents .none) {other : Nat}
    (own : exchange.OwnResting incoming other) :
    exchange.ledger.Registered other ∧
      exchange.ledger.entry (exchange.matching.order other).id = some (exchange.matching.order other).bookEntry ∧
      isSelfMatch incoming (exchange.book.resolve (exchange.matching.order other).id) = true := by
  have inside := (holds_number inv own.held).1
  refine ⟨inside, ((inv.agrees.at_ other).rests inside (by rintro ⟨⟩)).1, ?_⟩
  unfold OrderBook.resolve
  rw [inside]
  exact own.mine

section Prevents

variable (inv : exchange.ledger.Represents .none) (prevents : config.smpMode ≠ .none)
  (listed : header.symbol = config.symbol)

include inv prevents listed

private theorem newOrder_tells {msg : AddOrderMessage} {other : Nat}
    (admitted : exchange.ledger.byOrder (env.uuid exchange.book.globals.uuidDraws) = none)
    (free : ¬ exchange.ClientIdTaken msg.clientOrderId)
    (own : exchange.OwnResting (exchange.newOrder env config header msg) other) :
    ∃ told, TellsOf (exchange.matching.order other).id told exchange.matching
        (exchange.handleNewOrderRequest env config header msg).matching ∧
      (exchange.book.Withdraws config.matchingEngine config.smpMode (exchange.newOrder env config header msg)
          msg.price msg.qty msg.qty (exchange.matching.order other).bookEntry ∧
          told = [(exchange.matching.order other).id] ∨
        ¬ exchange.book.Withdraws config.matchingEngine config.smpMode (exchange.newOrder env config header msg)
          msg.price msg.qty msg.qty (exchange.matching.order other).bookEntry ∧ told = []) := by
  let ref := env.pool exchange.book.live
  let accepted := (exchange.acceptOrder env config header msg).matching
  have isOrder : accepted.order ref = exchange.newOrder env config header msg := acceptOrder_order ..
  have isLedger := @acceptOrder_ledger β _ exchange env config header msg
  have resolves := @acceptOrder_resolve β _ env config exchange header msg inv
  obtain ⟨inside, rests, mine⟩ := own_resolves inv own
  have apart : (accepted.order ref).id ≠ (exchange.matching.order other).id := by
    rw [isOrder]
    exact own.apart.symm
  obtain ⟨told, tells, which⟩ := matchOrder_tells config.matchingEngine env header.timeStamp
    (accepted.order ref).createdTime (incoming_accepted inv admitted free)
    (show accepted.ledger.entry (exchange.matching.order other).bookEntry.orderId = _ from
      (congrArg (fun ledger => ledger.entry (exchange.matching.order other).id) isLedger).trans rests)
    (show accepted.book.ownOrders config.smpMode (accepted.order ref) (exchange.matching.order other).id = true by
      unfold OrderBook.ownOrders
      rw [isOrder, show accepted.book.resolve _ = _ from resolves _, mine, decide_eq_true prevents]
      rfl) apart
  rw [isOrder, OrderBook.withdraws_congr (show accepted.book.l3 = exchange.book.l3 from acceptOrder_l3 header msg)
    (fun id => congrArg _ (resolves id)) rfl rfl] at which
  refine ⟨told, ?_, which⟩
  have accepts : TellsOf (exchange.matching.order other).id [] exchange.matching accepted :=
    .of_report (congrArg Ledger.responses isLedger) (by rw [← isOrder]; exact apart)
  have price : (accepted.order ref).price = msg.price := by rw [isOrder]; rfl
  have quantity : (accepted.order ref).quantity = msg.qty := by rw [isOrder]; rfl
  generalize matched : config.matchingEngine.matchOrder env ref msg.price msg.qty header.timeStamp
    (accepted.order ref).createdTime 0 config.smpMode accepted = result at tells
  obtain ⟨reason, summaries, between⟩ := result
  rw [← price, ← quantity] at matched
  obtain ⟨after, added, same⟩ : ∃ after, accepted.addOrder env config ref header.timeStamp =
      (reason, summaries, after) ∧ after.responses = between.responses :=
    ⟨_, MatchState.addOrder_eq matched, by split <;> rfl⟩
  rw [handleNewOrderRequest_matching listed free added]
  -- What follows the match is a reject at most, which carries no number.
  refine ((accepts.before tells).after (.of_responses same)).after ?_
  split
  · exact .of_report rfl (inv.indexed.registered_owned inside).1.symm
  · exact .of_responses rfl

private theorem amendment_tells {msg : ModifyOrderMessage} {ref other : Nat}
    (selected : selectOrder exchange.book msg.clientOrderId msg.orderId = some ref)
    (own : exchange.OwnResting (exchange.matching.order ref) other) :
    ∃ told, TellsOf (exchange.matching.order other).id told exchange.matching
        (exchange.handleModifyOrderRequest env config header msg).matching ∧
      (exchange.book.Withdraws config.matchingEngine config.smpMode (exchange.matching.order ref)
          msg.newPrice msg.newQty (amendedQty (exchange.matching.order ref) msg.newQty)
          (exchange.matching.order other).bookEntry ∧ told = [(exchange.matching.order other).id] ∨
        ¬ exchange.book.Withdraws config.matchingEngine config.smpMode (exchange.matching.order ref)
          msg.newPrice msg.newQty (amendedQty (exchange.matching.order ref) msg.newQty)
          (exchange.matching.order other).bookEntry ∧ told = []) := by
  let marked := (exchange.markReplace env header ref).matching
  have isOrder : marked.order ref = beginReplace header.requestTag (exchange.book.currentTime env)
      (exchange.matching.order ref) := markReplace_self
  have resolves : ∀ id, isSelfMatch (marked.order ref) (marked.book.resolve id) =
      isSelfMatch (exchange.matching.order ref) (exchange.book.resolve id) := by
    intro id
    refine MatchState.isSelfMatch_congr (markReplace_order ref) ?_
    unfold OrderBook.resolve
    rw [Option.map_map, Option.map_map, show marked.book.findOrder id = exchange.book.findOrder id from rfl]
    exact congrArg (fun client => Option.map client _) (funext markReplace_order)
  obtain ⟨inside, rests, mine⟩ := own_resolves inv own
  have apart : (marked.order ref).id ≠ (exchange.matching.order other).id := by
    rw [isOrder]
    exact own.apart.symm
  obtain ⟨told, tells, which⟩ := matchOrder_tells config.matchingEngine env header.timeStamp
    (marked.order ref).lastUpdateTime (@incoming_marked β _ exchange ref msg selected inv env header)
    (show marked.ledger.entry (exchange.matching.order other).bookEntry.orderId = _ from rests)
    (show marked.book.ownOrders config.smpMode (marked.order ref) (exchange.matching.order other).id = true by
      unfold OrderBook.ownOrders
      rw [resolves, mine, decide_eq_true prevents]
      rfl) apart
  rw [OrderBook.withdraws_congr (show marked.book.l3 = exchange.book.l3 from rfl) resolves
    (by rw [isOrder]; rfl) (by rw [isOrder]; rfl)] at which
  refine ⟨told, ?_, which⟩
  have marks : TellsOf (exchange.matching.order other).id [] exchange.matching marked :=
    .of_report rfl apart
  generalize matched : config.matchingEngine.matchOrder env ref msg.newPrice msg.newQty header.timeStamp
    (marked.order ref).lastUpdateTime 0 config.smpMode marked = result at tells
  obtain ⟨reason, summaries, between⟩ := result
  obtain ⟨after, modified, same⟩ := modifyOrder_told matched
  let published := { exchange.markReplace env header ref with matching := after }.publishTradeSummaries summaries
  have publishes : TellsOf (exchange.matching.order other).id [] between published.matching :=
    .of_responses ((congrArg MatchState.responses (publishTradeSummaries_matching summaries)).trans same)
  rw [handleModifyOrderRequest_eq listed selected]
  dsimp only
  rw [show (exchange.markReplace env header ref).matching.modifyOrder env config ref msg.newPrice msg.newQty
    header.timeStamp = _ from modified]
  dsimp only
  rw [flushMarketDataCaches_matching]
  -- What follows the match is a reject at most, which carries no number.
  refine ((marks.before tells).after publishes).after ?_
  split
  · refine .of_report rfl ?_
    exact (inv.indexed.registered_owned inside).1.symm
  · exact .of_responses rfl

end Prevents

/-- Under self-match prevention no order trades with a resting order of its own client. Of the client's
resting orders `CANCEL_RESTING` cancels those that the order reaches before its quantity runs out,
`CANCEL_NEWEST` none. -/
theorem selfTrade_prevented {allowed : Exchange β → Input → Prop} (reachable : Reachable env config allowed exchange)
    (prevents : config.smpMode ≠ .none) (listed : header.symbol = config.symbol) :
    (∀ msg : AddOrderMessage, exchange.Admits env (.newOrder header msg) → ¬ exchange.ClientIdTaken msg.clientOrderId →
      exchange.SparesOwn (exchange.step env config (.newOrder header msg)) config
        (exchange.newOrder env config header msg) msg.price msg.qty msg.qty) ∧
    ∀ (msg : ModifyOrderMessage) (ref : Nat), selectOrder exchange.book msg.clientOrderId msg.orderId = some ref →
      exchange.SparesOwn (exchange.step env config (.amend header msg)) config (exchange.matching.order ref)
        msg.newPrice msg.newQty (amendedQty (exchange.matching.order ref) msg.newQty) := by
  obtain ⟨inv, totalled⟩ := reachable.represents
  refine ⟨fun msg admitted free => ?_, fun msg ref selected => ?_⟩
  · obtain ⟨told, handled, -⟩ := @handleNewOrderRequest_handled β _ env config exchange header msg inv admitted listed
      free
    have apart : ∀ other, exchange.OwnResting (exchange.newOrder env config header msg) other →
        other ≠ env.pool exchange.book.live := by
      rintro other own rfl
      exact env.pool_fresh _ (inv.indexed.live_iff.mpr (.inl (own_resolves inv own).1))
    refine sparesOwn_of inv (step_represents inv totalled admitted) handled.responses
      (fun other own => congrArg OrderIdentity.id (handled.others other (apart other own))) fun other own => ?_
    exact ⟨handleNewOrderRequest_served listed inv (own_resolves inv own).1 admitted free,
      newOrder_tells inv prevents listed admitted free own⟩
  · obtain ⟨told, handled, -⟩ := @handleModifyOrderRequest_handled β _ env config exchange header ref msg listed selected
    have apart : ∀ other, exchange.OwnResting (exchange.matching.order ref) other → other ≠ ref := by
      rintro other own rfl
      exact own.apart rfl
    refine sparesOwn_of inv (step_represents inv totalled (show exchange.Admits env (.amend header msg) from trivial))
      handled.responses (fun other own => congrArg OrderIdentity.id (handled.others other (apart other own)))
      fun other own => ?_
    exact ⟨handleModifyOrderRequest_served listed inv (own_resolves inv own).1 (apart other own) selected,
      amendment_tells inv prevents listed selected own⟩

/-- A user with offers of its own in front of another's and behind it, and a bid below them: an order for more
than the other's offer, and an amendment of the bid to as much. -/
theorem selfTrade_prevented_around :
    let env : Environment := .counted fun _ => default
    let config : SymbolConfig := .reference .cancelResting
    let user := Environment.countedName 9
    let limit (draw : Nat) (userId : Name) (side : Side) (price qty : Int) : Input := .newOrder Input.header
      { userId, clientOrderId := Environment.countedName draw, side, type := .limit
        timeInForce := .goodTillCancel, price, qty }
    let exchange := (Exchange.new (fun _ => default) true : Exchange ReferenceBook).run env config
      [limit 1 user .sell 100 2, limit 2 default .sell 101 4, limit 4 user .sell 101 3, limit 5 user .buy 99 5]
    let msg : AddOrderMessage := { buyMessage .goodTillCancel 101 4 with userId := user }
    let amendment : ModifyOrderMessage :=
      { userId := user, orderId := default, clientOrderId := Environment.countedName 5, newPrice := 101, newQty := 5 }
    let bid := (exchange.book.findOrderByClientOrderId (Environment.countedName 5)).getD 0
    exchange.SparesOwn (exchange.step env config (.newOrder Input.header msg)) config
        (exchange.newOrder env config Input.header msg) 101 4 4 ∧
      exchange.SparesOwn (exchange.step env config (.amend Input.header amendment)) config
        (exchange.matching.order bid) 101 5 (amendedQty (exchange.matching.order bid) 5) := by
  intro env config user limit exchange msg amendment bid
  have start : Reachable env config (fun _ _ => True) (Exchange.new (fun _ => default) true :
      Exchange ReferenceBook) := .new _ _
  have reachable : Reachable env config (fun _ _ => True) exchange := start.run (by decide +kernel)
  have spares := @selfTrade_prevented _ _ env config exchange Input.header _ reachable (by decide) rfl
  exact ⟨spares.1 msg (by decide +kernel) (by decide +kernel), spares.2 amendment bid (by decide +kernel)⟩

end Exchange

end SlickSim
