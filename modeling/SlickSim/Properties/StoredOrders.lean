import SlickSim.Properties.FillCounts

/-!
# The orders a gateway lists

A gateway never reads a book: it folds the responses into orders of its own. What such an
order shows is what the book holds, unless the last response under its order id was a reject.
-/

set_option autoImplicit false

namespace SlickSim

def responsesUnder (responses : List OrderResponse) (orderId : Name) : List OrderResponse :=
  responses.filter fun response => decide (response.orderId = orderId)

/-- The entry repeats the terms of a response. -/
structure Order.Restates (entry : Order) (response : OrderResponse) : Prop where
  side : entry.side = response.side
  type : entry.type = response.orderType
  timeInForce : entry.timeInForce = response.timeInForce
  status : entry.status = response.orderStatus
  price : entry.price = response.price
  quantity : entry.quantity = response.qty
  leaves : entry.leavesQuantity = response.leavesQty
  filled : entry.cumQuantity = response.cumQty
  average : entry.avgFillPrice = response.avgFillPrice

namespace OrderStore

theorem restates_describe (response : OrderResponse) (order : Order) :
    (keepMessage response (countFill response (describe response order))).Restates response := by
  have counted : (countFill response (describe response order)).Restates response := by
    unfold countFill
    split
    · exact ⟨rfl, rfl, rfl, rfl, rfl, rfl, rfl, rfl, rfl⟩
    · exact ⟨rfl, rfl, rfl, rfl, rfl, rfl, rfl, rfl, rfl⟩
  unfold keepMessage
  split
  · exact { counted with }
  · exact { counted with }
  · exact counted

/-- An entry repeats the last response under its order id. -/
theorem replay_restates {responses : List OrderResponse} {orderId : Name} (named : orderId.isEmpty = false)
    {last : OrderResponse} (isLast : last ∈ (responsesUnder responses orderId).getLast?) :
    ∃ entry, (replay responses).find orderId = some entry ∧ entry.Restates last := by
  unfold replay responsesUnder at *
  induction responses using List.reverseRecOn with
  | nil => cases isLast
  | append_singleton earlier response ih =>
      rw [List.foldl_concat]
      rw [List.filter_append] at isLast
      by_cases same : response.orderId = orderId
      · rw [List.filter_cons_of_pos (by simp [same]), List.filter_nil, List.getLast?_concat] at isLast
        obtain rfl := Option.some.inj isLast
        subst same
        exact ⟨_, apply_find_self _ _ named, restates_describe ..⟩
      · rw [List.filter_cons_of_neg (by simp [same]), List.filter_nil, List.append_nil] at isLast
        rw [apply_find_other _ _ same]
        exact ih isLast

end OrderStore

/-! ## What the last report of an order says -/

/-- The response gives the terms of an order. -/
structure OrderResponse.Gives (response : OrderResponse) (order : Order) : Prop where
  side : response.side = order.side
  type : response.orderType = order.type
  price : response.price = order.price
  quantity : response.qty = order.quantity
  leaves : response.leavesQty = order.leavesQuantity
  accepted : response.orderStatus ≠ .rejected
  /-- The reports of a pending replacement count nothing as filled. -/
  filled : response.orderStatus = .pendingReplace ∨ response.cumQty = order.cumQuantity
  /-- They leave the time in force of their slot. -/
  timeInForce : response.orderStatus = .pendingReplace ∨ response.timeInForce = order.timeInForce
  finished : order.leavesQuantity = 0 → response.orderStatus = .filled

/-- The response is the last one on an order that is gone. -/
structure OrderResponse.Closes (response : OrderResponse) : Prop where
  leaves : response.leavesQty = 0
  status : response.orderStatus = .filled ∨ response.orderStatus = .canceled

/-- What the last report says of a life. -/
def Life.LastGives : Life → List OrderResponse → Prop
  | .alive .pending order, reports => 0 < order.leavesQuantity ∧ order.cumQuantity = 0 ∧
      ∃ last ∈ reports.getLast?, last.orderStatus = .pendingNew
  | .alive .working order, reports => 0 ≤ order.leavesQuantity ∧ ∃ last ∈ reports.getLast?, last.Gives order
  | .alive .amended order, reports => (0 ≤ order.leavesQuantity ∧ order.price ≠ nullPrice) ∧
      ∃ last ∈ reports.getLast?, last.Gives order
  | .alive .resting order, reports | .alive .amending order, reports =>
      0 < order.leavesQuantity ∧ ∃ last ∈ reports.getLast?, last.Gives order
  | .alive .emptied order, _ => order.leavesQuantity = 0
  | .alive .done _, reports | .gone, reports => ∃ last ∈ reports.getLast?, last.Closes
  | .alive .closing order, reports => order.leavesQuantity = 0 ∧ ∃ last ∈ reports.getLast?, last.Closes
  | .turnedAway, reports => ∃ last ∈ reports.getLast?, last.orderStatus = .pendingNew
  | .alive .cancelling _, _ | .unborn, _ => True

/-- New orders have a positive quantity and a new order id, and amendments name a price. -/
def Terms.listed (config : SymbolConfig) : Terms :=
  { Terms.wellPosed config with
    accept := fun past _ order => 0 < order.quantity ∧
      ∀ report ∈ past, report.orderNum ≠ 0 → report.orderId ≠ order.orderId }

private theorem lastGives_append {reports : List OrderResponse} {report : OrderResponse}
    {holds : OrderResponse → Prop} (last : holds report) : ∃ other ∈ (reports ++ [report]).getLast?, holds other :=
  ⟨report, List.getLast?_concat .., last⟩

private theorem gives_execution (slot : OrderResponse) (order : Order) (aggressor : Bool) :
    (slot.writeExecution order aggressor).Gives order where
  side := rfl
  type := rfl
  price := rfl
  quantity := rfl
  leaves := rfl
  accepted := by
    unfold OrderResponse.writeExecution
    dsimp only
    split <;> rintro ⟨⟩
  filled := .inr rfl
  timeInForce := .inr rfl
  finished := fun done => if_neg (not_not_intro done)

theorem LifeStep.lastGives {config : SymbolConfig} {before after : Life × List OrderResponse}
    (step : LifeStep (.listed config) before after) (told : before.1.LastGives before.2) :
    after.1.LastGives after.2 := by
  cases step with
  | accept named whole unfilled unpriced permitted =>
      refine ⟨?_, unfilled, _, rfl, rfl⟩
      rw [whole]
      exact permitted.1
  | @touch stage order reports status lastUpdateTime requestTag =>
      have kept : ∀ last : OrderResponse, last.Gives order → last.Gives (order.touch status lastUpdateTime requestTag) :=
        fun last gives => { gives with }
      cases stage
      case pending | done | emptied | closing | cancelling => exact told
      all_goals
        obtain ⟨left, last, isLast, gives⟩ := told
        exact ⟨left, last, isLast, kept last gives⟩
  | @ack order reports slot requestTime =>
      obtain ⟨left, unfilled, -⟩ := told
      refine ⟨Int.le_of_lt left, lastGives_append ?_⟩
      exact ⟨rfl, rfl, rfl, rfl, rfl, by rintro ⟨⟩, .inr unfilled.symm, .inr rfl, fun nothing => by omega⟩
  | refuse permitted => exact told.2.2
  | @aggress stage order reports slot price qty timestamp matching positive within =>
      have given := gives_execution slot (order.execute price qty timestamp) true
      have left : 0 ≤ (order.execute price qty timestamp).leavesQuantity := by
        rw [Order.execute_leaves]
        omega
      rcases matching with rfl | rfl
      · exact ⟨left, lastGives_append given⟩
      · exact ⟨⟨left, told.1.2⟩, lastGives_append given⟩
  | @fillPartly order reports slot qty timestamp positive within =>
      refine ⟨?_, lastGives_append (gives_execution ..)⟩
      rw [Order.execute_leaves]
      omega
  | @fillFully order reports slot timestamp =>
      have nothing : (order.execute order.price order.leavesQuantity timestamp).leavesQuantity = 0 := by
        rw [Order.execute_leaves]
        omega
      have given := gives_execution slot (order.execute order.price order.leavesQuantity timestamp) false
      exact lastGives_append ⟨given.leaves.trans nothing, .inl (given.finished nothing)⟩
  | cancelResting rests => exact lastGives_append ⟨rfl, .inr rfl⟩
  | cancelHand unrestable unfinished => exact lastGives_append ⟨rfl, .inr rfl⟩
  | dropDone => exact told
  | dropFilled filled traded =>
      obtain ⟨nonneg, last, isLast, gives⟩ := told
      exact ⟨last, isLast, gives.leaves.trans (by omega), .inl (gives.finished (by omega))⟩
  | rest left =>
      obtain ⟨-, last, isLast, gives⟩ := told
      exact ⟨left, last, isLast, { gives with }⟩
  | @startAmend order reports slot requestTime now requestTag permitted =>
      refine ⟨told.1, lastGives_append ?_⟩
      exact ⟨rfl, rfl, rfl, rfl, rfl, by rintro ⟨⟩, .inl rfl, .inl rfl,
        fun nothing => absurd told.1 (Int.not_lt.mpr (Int.le_of_eq nothing))⟩
  | abortAmend permitted => exact told
  | @replace order reports slot requestTime newPrice newQty permitted =>
      by_cases filled : newQty ≤ order.cumQuantity
      · rw [decide_eq_true filled]
        exact if_pos filled
      · rw [decide_eq_false filled]
        have left : (order.replace newPrice newQty).leavesQuantity = newQty - order.cumQuantity := if_neg filled
        refine ⟨⟨by omega, permitted⟩, lastGives_append ?_⟩
        exact ⟨rfl, rfl, rfl, rfl, rfl, by rintro ⟨⟩, .inr rfl, .inr rfl, fun nothing => by omega⟩
  | cancelAmended unrestable =>
      rcases unrestable with rfl | ⟨rfl, left, unpriced⟩
      · exact ⟨told, lastGives_append ⟨rfl, .inr rfl⟩⟩
      · exact absurd unpriced told.1.2
  | amendRests held left permitted =>
      rcases held with rfl | rfl
      · obtain ⟨-, last, isLast, gives⟩ := told
        exact ⟨left, last, isLast, { gives with }⟩
      · have nothing := told.1
        omega
  | amendGone held filled =>
      rcases held with rfl | rfl
      · obtain ⟨-, last, isLast, gives⟩ := told
        exact ⟨last, isLast, gives.leaves.trans filled, .inl (gives.finished filled)⟩
      · exact told.2
  | startCancel permitted => trivial

theorem Life.lastGives_of_run {config : SymbolConfig} {state : Life × List OrderResponse}
    (run : Relation.ReflTransGen (LifeStep (.listed config)) (.unborn, []) state) :
    state.1.LastGives state.2 := by
  induction run with
  | refl => trivial
  | tail _ step ih => exact step.lastGives ih

/-- An entry shows the terms of an order of the book. -/
structure Order.Shows (entry order : Order) : Prop where
  side : entry.side = order.side
  type : entry.type = order.type
  price : entry.price = order.price
  quantity : entry.quantity = order.quantity
  leaves : entry.leavesQuantity = order.leavesQuantity
  filled : entry.status = .pendingReplace ∨ entry.cumQuantity = order.cumQuantity
  timeInForce : entry.status = .pendingReplace ∨ entry.timeInForce = order.timeInForce

theorem OrderResponse.Gives.shows {last : OrderResponse} {order entry : Order} (gives : last.Gives order)
    (restates : entry.Restates last) : entry.Shows order where
  side := restates.side.trans gives.side
  type := restates.type.trans gives.type
  price := restates.price.trans gives.price
  quantity := restates.quantity.trans gives.quantity
  leaves := restates.leaves.trans gives.leaves
  filled := gives.filled.imp restates.status.trans restates.filled.trans
  timeInForce := gives.timeInForce.imp restates.status.trans restates.timeInForce.trans

namespace Ledger

variable {ledger : Ledger} {report last : OrderResponse}

/-- What carries a number under an order id are the reports on the order of that id. -/
theorem Named.reports_eq (named : ledger.Named) (told : report ∈ ledger.responses) (numbered : report.orderNum ≠ 0) :
    ledger.reports report.orderNum =
      (responsesUnder ledger.responses report.orderId).filter fun response => decide (response.orderNum ≠ 0) := by
  unfold reports responsesUnder
  rw [List.filter_filter]
  refine List.filter_congr fun other member => ?_
  rw [← Bool.decide_and, decide_eq_decide]
  constructor
  · intro same
    have otherNumbered : other.orderNum ≠ 0 := same ▸ numbered
    exact ⟨otherNumbered, (named.names other member report told otherNumbered numbered).mpr same⟩
  · rintro ⟨otherNumbered, same⟩
    exact (named.names other member report told otherNumbered numbered).mp same

/-- If it is a report, the last response under an order id is the last report on the order. -/
theorem Named.last_report (named : ledger.Named) (told : report ∈ ledger.responses) (numbered : report.orderNum ≠ 0)
    (isLast : last ∈ (responsesUnder ledger.responses report.orderId).getLast?) (isReport : last.orderNum ≠ 0) :
    (ledger.reports report.orderNum).getLast? = some last := by
  obtain ⟨earlier, split⟩ := List.getLast?_eq_some_iff.mp isLast
  rw [named.reports_eq told numbered, split, List.filter_append, List.filter_cons_of_pos (by simp [isReport]),
    List.filter_nil, List.getLast?_concat]

end Ledger

namespace Exchange

variable {β : Type} [OrderBookL3 β] {env : Environment} {config : SymbolConfig} {exchange : Exchange β}

/-- New orders are for a positive quantity and draw a new uuid, and amendments name a price. -/
def WellListed (env : Environment) (exchange : Exchange β) (input : Input) : Prop :=
  exchange.WellPosed input ∧ exchange.DrawsFreshName env input

instance (env : Environment) (exchange : Exchange β) (input : Input) : Decidable (exchange.WellListed env input) :=
  inferInstanceAs (Decidable (_ ∧ _))

theorem wellListed_licence {input : Input} (listed : exchange.WellListed env input) :
    exchange.RequestLicence ((Terms.listed config).permit env) env config input := by
  refine requestLicence_of_terms (fun _ _ => trivial) (fun _ => trivial) (fun _ _ => trivial)
    (fun newest => newest) ?_ ?_ (fun _ _ _ _ _ _ => trivial)
  · rintro header msg rfl
    refine ⟨listed.1, ?_⟩
    intro report told number
    rw [newOrder_orderId]
    exact listed.2 report told number
  · rintro header msg ref rfl - -
    exact ⟨trivial, fun _ _ => listed.1⟩

/-- What the last response under its order id says of an order: it is a reject if it has no
number, else it gives the terms of the order as it rests, or closes it. -/
theorem Reachable.last_response (reachable : Reachable env config (WellListed env) exchange)
    {report last : OrderResponse} (told : report ∈ exchange.matching.responses) (numbered : report.orderNum ≠ 0)
    (isLast : last ∈ (responsesUnder exchange.matching.responses report.orderId).getLast?) :
    (last.orderStatus = .rejected ↔ last.orderNum = 0) ∧
      (last.orderNum ≠ 0 →
        (∀ ref, exchange.book.findOrder report.orderNum = some ref →
          0 < (exchange.book.heap ref).leavesQuantity ∧ last.Gives (exchange.book.heap ref)) ∧
        (exchange.book.findOrder report.orderNum = none →
          last.Closes ∨
            last.orderStatus = .pendingNew ∧ Ledger.ReportsTurnedAway exchange.matching.responses report.orderNum)) := by
  obtain ⟨names, storied⟩ := reachable.named (.listed config) (fun _ _ _ permitted => permitted.2)
    fun _ _ _ _ listed => wellListed_licence listed
  obtain ⟨life, lives, past⟩ := storied _ numbered
  have gives := Life.lastGives_of_run past
  have owned : exchange.ledger.Owned report.orderNum := ⟨numbered, report, told, rfl⟩
  have isTold : last ∈ exchange.matching.responses := List.mem_of_mem_filter (List.mem_of_getLast? isLast)
  rcases Nat.eq_zero_or_pos last.orderNum with unnumbered | isReport
  · obtain ⟨⟨-, rejected⟩, -⟩ := names.rejects last isTold unnumbered
    exact ⟨iff_of_true rejected unnumbered, fun isReport => absurd unnumbered isReport⟩
  have isLastReport := names.last_report told numbered isLast isReport.ne'
  have accepted : last.orderStatus ≠ .rejected → (last.orderStatus = .rejected ↔ last.orderNum = 0) :=
    fun accepted => iff_of_false accepted isReport.ne'
  cases life with
  | unborn => exact absurd lives (Ledger.owned_iff_reports.mp owned).2
  | alive stage order =>
      obtain ⟨ref, rfl, sameId, held | ⟨rfl, inside, -⟩, -⟩ := lives
      · cases held
      · obtain ⟨left, other, isOther, gives⟩ := gives
        obtain rfl := Option.some.inj (isLastReport.symm.trans isOther)
        have isRef : exchange.book.findOrder report.orderNum = some ref := sameId ▸ inside
        refine ⟨accepted gives.accepted, fun _ => ⟨fun other held => ?_, fun gone => ?_⟩⟩
        · obtain rfl := Option.some.inj (isRef.symm.trans held)
          exact ⟨left, gives⟩
        · cases isRef.symm.trans gone
  | turnedAway =>
      obtain ⟨other, isOther, pending⟩ := gives
      obtain rfl := Option.some.inj (isLastReport.symm.trans isOther)
      obtain ⟨-, absent, rejected | ⟨ref, held, -⟩⟩ := lives
      · refine ⟨accepted ?_, fun _ => ⟨fun ref held => ?_, fun _ => .inr ⟨pending, rejected⟩⟩⟩
        · rw [pending]
          rintro ⟨⟩
        · cases absent.1.symm.trans held
      · cases held
  | gone =>
      obtain ⟨other, isOther, closes⟩ := gives
      obtain rfl := Option.some.inj (isLastReport.symm.trans isOther)
      refine ⟨accepted ?_, fun _ => ⟨fun ref held => ?_, fun _ => .inl closes⟩⟩
      · rcases closes.status with filled | canceled
        · rw [filled]
          rintro ⟨⟩
        · rw [canceled]
          rintro ⟨⟩
      · cases lives.2.1.symm.trans held

/-- The entry a gateway keeps of an order shows it rejected exactly when the last response under
its order id was a reject. Otherwise it shows the order as it rests in the book; once the order
is gone, it is filled or cancelled with nothing left, and pending for ever if it was turned
away. -/
theorem stored_orders (reachable : Reachable env config (WellListed env) exchange) {report last : OrderResponse}
    (told : report ∈ exchange.matching.responses) (numbered : report.orderNum ≠ 0)
    (named : report.orderId.isEmpty = false)
    (isLast : last ∈ (responsesUnder exchange.matching.responses report.orderId).getLast?) :
    ∃ entry, (OrderStore.replay exchange.matching.responses).find report.orderId = some entry ∧
      (entry.status = .rejected ↔ last.orderNum = 0) ∧
      (last.orderNum ≠ 0 →
        (∀ ref, exchange.book.findOrder report.orderNum = some ref → entry.Shows (exchange.book.heap ref)) ∧
        (exchange.book.findOrder report.orderNum = none →
          entry.leavesQuantity = 0 ∧ (entry.status = .filled ∨ entry.status = .canceled) ∨
          entry.status = .pendingNew ∧ Ledger.ReportsTurnedAway exchange.matching.responses report.orderNum)) := by
  obtain ⟨entry, found, restates⟩ := OrderStore.replay_restates named isLast
  obtain ⟨rejected, given⟩ := reachable.last_response told numbered isLast
  rw [← restates.status] at rejected
  refine ⟨entry, found, rejected, fun isReport => ?_⟩
  obtain ⟨rests, gone⟩ := given isReport
  refine ⟨fun ref held => (rests ref held).2.shows restates, fun absent => ?_⟩
  rcases gone absent with closes | ⟨pending, turnedAway⟩
  · exact .inl ⟨restates.leaves.trans closes.leaves, closes.status.imp restates.status.trans restates.status.trans⟩
  · exact .inr ⟨restates.status.trans pending, turnedAway⟩

/-- A bid of five that has been filled by two rests with three, and so it is listed. -/
theorem stored_orders_partFilled :
    let env : Environment := .counted fun _ => default
    let exchange := (Exchange.new (fun _ => default) true : Exchange ReferenceBook).run env (.reference .cancelResting)
      [.limit 1 .buy 100 5, .limit 2 .sell 100 2]
    let responses := exchange.matching.responses
    let bid := responses[0]?.getD default
    ∃ entry ref, (OrderStore.replay responses).find bid.orderId = some entry ∧
      exchange.book.findOrder bid.orderNum = some ref ∧
      entry.Shows (exchange.book.heap ref) ∧ (exchange.book.heap ref).leavesQuantity = 3 := by
  intro env exchange responses bid
  have start : Reachable env (.reference .cancelResting) (WellListed env)
      (Exchange.new (fun _ => default) true : Exchange ReferenceBook) := .new _ _
  have reachable : Reachable env (.reference .cancelResting) (WellListed env) exchange := start.run (by decide +kernel)
  have told : bid ∈ responses := by decide +kernel
  have isReport : bid.orderNum ≠ 0 ∧ bid.orderId.isEmpty = false := by decide +kernel
  have last : ∃ last ∈ (responsesUnder responses bid.orderId).getLast?, last.orderNum ≠ 0 :=
    ⟨(responsesUnder responses bid.orderId).getLast?.getD default, by decide +kernel, by decide +kernel⟩
  have rests : ∃ ref, exchange.book.findOrder bid.orderNum = some ref ∧
      (exchange.book.heap ref).leavesQuantity = 3 :=
    ⟨(exchange.book.findOrder bid.orderNum).getD 0, by decide +kernel, by decide +kernel⟩
  obtain ⟨last, isLast, lastReport⟩ := last
  obtain ⟨ref, isRef, left⟩ := rests
  obtain ⟨entry, found, -, listed⟩ :=
    @stored_orders ReferenceBook _ env (.reference .cancelResting) exchange reachable bid last told isReport.1
      isReport.2 isLast
  exact ⟨entry, ref, found, isRef, (listed lastReport).1 ref isRef, left⟩

end Exchange

end SlickSim
