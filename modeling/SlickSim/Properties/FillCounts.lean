import SlickSim.Gateway.OrderStore
import SlickSim.Ledger.Naming
import SlickSim.Lib.Along
import SlickSim.Properties.ReportLifecycle
import SlickSim.Venues.CoinbaseWsOrderGateway

/-!
# The number of fills

An update of the Coinbase user channel derives its number of fills from the cumulative
and the last quantity of one report. That is the number of trades reported so far when
the last fill goes as often into the ones before it as there are of them, and never once
an amendment or a cancel of a filled order is reported pending or rejected.
-/

set_option autoImplicit false

namespace SlickSim

/-- The sizes of the fills among the reports on one order. -/
def fillSizes (reports : List OrderResponse) : List Int :=
  (reports.filter fun report => decide (report.execType = .trade)).map OrderResponse.lastQty

theorem fillSizes_append_trade {reports : List OrderResponse} {report : OrderResponse}
    (trade : report.execType = .trade) :
    fillSizes (reports ++ [report]) = fillSizes reports ++ [report.lastQty] := by
  unfold fillSizes
  rw [List.filter_append, List.filter_cons_of_pos (by simp [trade]), List.map_append]
  rfl

theorem fillSizes_append_other {reports : List OrderResponse} {report : OrderResponse}
    (other : report.execType ≠ .trade) : fillSizes (reports ++ [report]) = fillSizes reports := by
  unfold fillSizes
  rw [List.filter_append, List.filter_cons_of_neg (by simp [other]), List.filter_nil, List.append_nil]

/-- The last of some fills goes into those before it as often as there are of them. -/
def LastFillTypical (sizes : List Int) : Prop :=
  ∀ last ∈ sizes.getLast?, sizes.dropLast.length * last ≤ sizes.dropLast.sum ∧
    sizes.dropLast.sum < (sizes.dropLast.length + 1) * last

instance (sizes : List Int) : Decidable (LastFillTypical sizes) :=
  inferInstanceAs (Decidable (∀ last ∈ _, _))

/-- What cumulative and last quantity give away about the number of fills. -/
theorem lastFillTypical_iff {earlier : List Int} {last : Int} (positive : 0 < last)
    (filled : 0 ≤ earlier.sum) :
    LastFillTypical (earlier ++ [last]) ↔
      (earlier.sum + last).tdiv last = (earlier ++ [last]).length := by
  have quotient : (earlier.sum + last).tdiv last = earlier.sum / last + 1 := by
    rw [Int.tdiv_eq_ediv_of_nonneg (by omega), Int.add_ediv_of_dvd_right (Int.dvd_refl _),
      Int.ediv_self (by omega)]
  have typical : LastFillTypical (earlier ++ [last]) ↔
      earlier.length * last ≤ earlier.sum ∧ earlier.sum < (earlier.length + 1) * last := by
    unfold LastFillTypical
    rw [List.getLast?_concat, List.dropLast_concat]
    exact ⟨fun all => all last rfl, fun both other isLast => by cases isLast; exact both⟩
  rw [typical, quotient, List.length_append, List.length_singleton]
  have : earlier.sum / last = earlier.length ↔
      earlier.length * last ≤ earlier.sum ∧ earlier.sum < (earlier.length + 1) * last := by
    rw [Int.ediv_eq_iff_of_pos positive, Int.add_mul, Int.one_mul]
  omega

/-- What a report's quantities say of the fills on the reports before it. -/
def OrderResponse.Tallies (report : OrderResponse) (earlier : List OrderResponse) : Prop :=
  match report.execType with
  | .trade => 0 < report.lastQty ∧ report.cumQty = (fillSizes earlier).sum + report.lastQty
  | .new => fillSizes earlier = [] ∧ report.cumQty = 0
  | .replaced | .canceled =>
      report.cumQty = (fillSizes earlier).sum ∧ report.lastQty = (fillSizes earlier).getLastD 0
  | .pendingReplace | .pendingCancel => report.cumQty = 0
  | _ => False

/-- Every report tallies with the fills before it. -/
def Tallied (reports : List OrderResponse) : Prop :=
  ∀ earlier report later, reports = earlier ++ report :: later → report.Tallies earlier

theorem Tallied.positive {reports : List OrderResponse} (tallied : Tallied reports) :
    ∀ size ∈ fillSizes reports, 0 < size := by
  intro size member
  obtain ⟨report, inside, rfl⟩ := List.mem_map.mp member
  obtain ⟨told, trade⟩ := List.mem_filter.mp inside
  obtain ⟨earlier, later, split⟩ := List.append_of_mem told
  have tallies := tallied earlier report later split
  unfold OrderResponse.Tallies at tallies
  rw [of_decide_eq_true trade] at tallies
  exact tallies.1

/-- An order number is new to its client, and has no fill on record. -/
def Terms.freshNames : Terms :=
  { Terms.all with
    accept := fun past _ order =>
      order.lastFillQty = 0 ∧ ∀ report ∈ past, report.orderNum ≠ 0 → report.orderId ≠ order.orderId }

def Stage.Fillable : Stage → Order → List OrderResponse → Prop
  | .pending, _, reports => fillSizes reports = []
  | .resting, order, _ | .amending, order, _ | .cancelling, order, _ => 0 < order.leavesQuantity
  | _, _, _ => True

/-- The order adds up the fills its reports tell of. -/
def Life.CountsFills : Life → List OrderResponse → Prop
  | .alive stage order, reports =>
      Tallied reports ∧ ((fillSizes reports).sum = order.cumQuantity ∧
        (fillSizes reports).getLastD 0 = order.lastFillQty) ∧ stage.Fillable order reports
  | _, reports => Tallied reports

section Reports

variable {reports : List OrderResponse} {order : Order}

private theorem execution_tallied (slot : OrderResponse) (price : Int) {qty : Int} (timestamp : Nat)
    (aggressor : Bool) (tallied : Tallied reports) (sum : (fillSizes reports).sum = order.cumQuantity)
    (positive : 0 < qty) :
    let filled := order.execute price qty timestamp
    let next := reports ++ [slot.writeExecution filled aggressor]
    Tallied next ∧ (fillSizes next).sum = filled.cumQuantity ∧
      (fillSizes next).getLastD 0 = filled.lastFillQty := by
  intro filled next
  have sizes : fillSizes next = fillSizes reports ++ [qty] := fillSizes_append_trade rfl
  refine ⟨forall_split_append tallied ⟨positive, ?_⟩, ?_, ?_⟩
  · rw [sum]
    rfl
  · rw [sizes, List.sum_append, List.sum_singleton, sum]
    rfl
  · rw [sizes, List.getLastD_concat]
    rfl

private theorem other_tallied (report : OrderResponse) (tallied : Tallied reports)
    (fills : (fillSizes reports).sum = order.cumQuantity ∧
      (fillSizes reports).getLastD 0 = order.lastFillQty)
    (other : report.execType ≠ .trade) (tallies : report.Tallies reports) :
    Tallied (reports ++ [report]) ∧ (fillSizes (reports ++ [report])).sum = order.cumQuantity ∧
      (fillSizes (reports ++ [report])).getLastD 0 = order.lastFillQty := by
  rw [fillSizes_append_other other]
  exact ⟨forall_split_append tallied tallies, fills⟩

end Reports

theorem LifeStep.tallied {before after : Life × List OrderResponse} (step : LifeStep .freshNames before after)
    (told : before.1.CountsFills before.2) :
    after.1.CountsFills after.2 := by
  cases step with
  | @accept past slot order requestTime named whole unfilled unpriced permitted =>
      have next := @other_tallied [] order (slot.writeNewPending order requestTime) told
        ⟨unfilled.symm, permitted.1.symm⟩ (by rintro ⟨⟩) ⟨rfl, rfl⟩
      exact ⟨next.1, next.2, rfl⟩
  | @touch stage order reports status lastUpdateTime requestTag =>
      obtain ⟨tallied, fills, fillable⟩ := told
      refine ⟨tallied, fills, ?_⟩
      cases stage <;> exact fillable
  | @ack order reports slot requestTime =>
      obtain ⟨tallied, fills, nothing⟩ := told
      have next := other_tallied (slot.writeAck order requestTime) tallied fills (by rintro ⟨⟩) ⟨nothing, rfl⟩
      exact ⟨next.1, next.2, trivial⟩
  | refuse permitted => exact told.1
  | @aggress stage order reports slot price qty timestamp matching positive within =>
      obtain ⟨tallied, fills, -⟩ := told
      have next := execution_tallied slot price timestamp true tallied fills.1 positive
      refine ⟨next.1, next.2, ?_⟩
      rcases matching with rfl | rfl <;> trivial
  | @fillPartly order reports slot qty timestamp positive within =>
      obtain ⟨tallied, fills, -⟩ := told
      have next := execution_tallied slot order.price timestamp false tallied fills.1 positive
      refine ⟨next.1, next.2, ?_⟩
      show 0 < order.leavesQuantity - qty
      omega
  | @fillFully order reports slot timestamp =>
      obtain ⟨tallied, fills, left⟩ := told
      exact (execution_tallied slot order.price timestamp false tallied fills.1 left).1
  | @cancelResting stage order reports slot requestTime rests =>
      obtain ⟨tallied, fills, -⟩ := told
      exact (other_tallied (slot.writeCancel order.withoutLeaves requestTime) tallied fills (by rintro ⟨⟩)
        ⟨fills.1.symm, fills.2.symm⟩).1
  | @cancelHand order reports slot requestTime unrestable unfinished =>
      obtain ⟨tallied, fills, -⟩ := told
      have next := other_tallied (slot.writeCancel order requestTime) tallied fills (by rintro ⟨⟩)
        ⟨fills.1.symm, fills.2.symm⟩
      exact ⟨next.1, next.2, trivial⟩
  | dropDone => exact told.1
  | dropFilled filled traded => exact told.1
  | rest left => exact ⟨told.1, told.2.1, left⟩
  | @startAmend order reports slot requestTime now requestTag permitted =>
      obtain ⟨tallied, fills, left⟩ := told
      have next := other_tallied
        (slot.writeReplacePending (order.touch .pendingReplace now requestTag) requestTime) tallied fills
        (by rintro ⟨⟩) rfl
      exact ⟨next.1, next.2, left⟩
  | abortAmend permitted => exact told
  | @replace order reports slot requestTime newPrice newQty permitted =>
      obtain ⟨tallied, fills, -⟩ := told
      have next := other_tallied
        (slot.writeModify (order.replace newPrice newQty) newPrice newQty requestTime) tallied fills
        (by rintro ⟨⟩) ⟨fills.1.symm, fills.2.symm⟩
      refine ⟨next.1, next.2, ?_⟩
      unfold Stage.replaced
      split <;> trivial
  | @cancelAmended stage order reports slot requestTime unrestable =>
      obtain ⟨tallied, fills, -⟩ := told
      have next := other_tallied (slot.writeCancel order requestTime) tallied fills (by rintro ⟨⟩)
        ⟨fills.1.symm, fills.2.symm⟩
      exact ⟨next.1, next.2, trivial⟩
  | amendRests held left permitted => exact ⟨told.1, told.2.1, left⟩
  | amendGone held filled => exact told.1
  | @startCancel order reports slot requestTime requestTag permitted =>
      obtain ⟨tallied, fills, left⟩ := told
      have next := other_tallied (slot.writeCancelPending
        (order.touch .pendingCancel order.lastUpdateTime requestTag) requestTime) tallied fills
        (by rintro ⟨⟩) rfl
      exact ⟨next.1, next.2, left⟩

theorem Life.tallied_of_run {life : Life} {reports : List OrderResponse}
    (run : Relation.ReflTransGen (LifeStep .freshNames) (.unborn, []) (life, reports)) : Tallied reports := by
  have general : ∀ state, Relation.ReflTransGen (LifeStep .freshNames) (.unborn, []) state →
      state.1.CountsFills state.2 := by
    intro state run
    induction run with
    | refl =>
        intro earlier report later split
        cases earlier <;> cases split
    | tail _ step ih => exact step.tallied ih
  have tallied := general _ run
  cases life with
  | alive stage order => exact tallied.1
  | unborn => exact tallied
  | turnedAway => exact tallied
  | gone => exact tallied

/-! ## What the update says -/

/-- Where the number of fills can be told from the quantities of a report, given the sizes of
the fills reported up to it. -/
def OrderResponse.FillsCountable (report : OrderResponse) (sizes : List Int) : Prop :=
  match report.execType with
  | .pendingReplace | .pendingCancel | .rejected => sizes = []
  | _ => LastFillTypical sizes

instance (report : OrderResponse) (sizes : List Int) : Decidable (report.FillsCountable sizes) := by
  unfold OrderResponse.FillsCountable
  split <;> infer_instance

theorem numberOfFills_of_unfilled {report : OrderResponse} (unfilled : report.cumQty = 0) :
    numberOfFills report = 0 := by
  unfold numberOfFills
  rw [unfilled, Int.zero_tdiv, ite_self]

/-- One report says how many fills there were exactly where that can be told. -/
theorem numberOfFills_eq_iff {report : OrderResponse} {earlier : List OrderResponse}
    (tallies : report.Tallies earlier) (positive : ∀ size ∈ fillSizes earlier, 0 < size) :
    numberOfFills report = (fillSizes (earlier ++ [report])).length ↔
      report.FillsCountable (fillSizes (earlier ++ [report])) := by
  have nonneg : ∀ {sizes : List Int}, (∀ size ∈ sizes, 0 < size) → 0 ≤ sizes.sum :=
    fun all => List.sum_nonneg fun size member => Int.le_of_lt (all size member)
  unfold OrderResponse.Tallies at tallies
  unfold OrderResponse.FillsCountable
  cases kind : report.execType <;> rw [kind] at tallies
  case trade =>
    obtain ⟨last, cum⟩ := tallies
    rw [fillSizes_append_trade kind, lastFillTypical_iff last (nonneg positive)]
    unfold numberOfFills
    rw [if_pos last, cum]
  case new =>
    obtain ⟨nothing, unfilled⟩ := tallies
    rw [fillSizes_append_other (by rw [kind]; rintro ⟨⟩), nothing, numberOfFills_of_unfilled unfilled]
    exact iff_of_true rfl (by rintro _ ⟨⟩)
  case replaced | canceled =>
    obtain ⟨cum, last⟩ := tallies
    rw [fillSizes_append_other (by rw [kind]; rintro ⟨⟩)]
    rcases List.eq_nil_or_concat (fillSizes earlier) with nothing | ⟨init, size, filled⟩
    · rw [nothing] at cum ⊢
      rw [numberOfFills_of_unfilled cum]
      exact iff_of_true rfl (by rintro _ ⟨⟩)
    · rw [List.concat_eq_append] at filled
      rw [filled] at positive cum last ⊢
      rw [List.getLastD_concat] at last
      rw [List.sum_append, List.sum_singleton] at cum
      have now : 0 < size := positive size (List.mem_append_right _ (List.mem_singleton_self _))
      rw [lastFillTypical_iff now
        (nonneg fun other member => positive other (List.mem_append_left _ member))]
      unfold numberOfFills
      rw [last, if_pos now, cum]
  case pendingReplace | pendingCancel =>
    rw [numberOfFills_of_unfilled tallies, fillSizes_append_other (by rw [kind]; rintro ⟨⟩)]
    rw [← List.length_eq_zero_iff]
    omega
  all_goals exact tallies.elim

namespace Ledger

variable {ledger : Ledger} {earlier later : List OrderResponse} {report : OrderResponse}

/-- The fills under an order id are the fills under the number of its order. -/
theorem Named.fillsUnder_eq (named : ledger.Named) (told : ledger.responses = earlier ++ report :: later)
    (number : report.orderNum ≠ 0) : (fillsUnder (earlier ++ [report]) report.orderId).map OrderResponse.lastQty =
      fillSizes ((earlier ++ [report]).filter fun other => decide (other.orderNum = report.orderNum)) := by
  unfold fillsUnder fillSizes
  rw [List.filter_filter]
  refine congrArg _ (List.filter_congr fun other member => ?_)
  have within : ∀ other ∈ earlier ++ [report], other ∈ ledger.responses := by
    intro other member
    rw [told, List.append_cons]
    exact List.mem_append_left _ member
  rw [← Bool.decide_and, decide_eq_decide]
  refine and_congr_right fun trade => ?_
  have numbered : other.orderNum ≠ 0 := by
    intro zero
    have rejected := (named.rejects other (within other member) zero).1.1
    rw [trade] at rejected
    cases rejected
  exact named.names other (within other member) report (within report (by simp)) numbered number

theorem numberOfFills_of_told (named : ledger.Named) (storied : ledger.Storied .freshNames .none)
    (told : ledger.responses = earlier ++ report :: later) :
    numberOfFills report = (fillsUnder (earlier ++ [report]) report.orderId).length ↔
      report.FillsCountable ((fillsUnder (earlier ++ [report]) report.orderId).map OrderResponse.lastQty) := by
  have member : report ∈ ledger.responses := by
    rw [told]
    exact List.mem_append_right _ List.mem_cons_self
  by_cases number : report.orderNum = 0
  · obtain ⟨⟨rejected, -⟩, unfilled⟩ := named.rejects report member number
    rw [numberOfFills_of_unfilled unfilled]
    unfold OrderResponse.FillsCountable
    rw [rejected]
    show _ ↔ List.map _ _ = []
    rw [List.map_eq_nil_iff, ← List.length_eq_zero_iff]
    omega
  · obtain ⟨life, -, past⟩ := storied _ number
    have tallied := Life.tallied_of_run past
    have mine : ledger.reports report.orderNum =
        (earlier.filter fun other => decide (other.orderNum = report.orderNum)) ++
          report :: later.filter fun other => decide (other.orderNum = report.orderNum) := by
      unfold reports
      rw [told, List.filter_append, List.filter_cons_of_pos (by simp)]
    have positive : ∀ size ∈ fillSizes (earlier.filter fun other =>
        decide (other.orderNum = report.orderNum)), 0 < size := by
      intro size inside
      refine tallied.positive size ?_
      rw [mine]
      unfold fillSizes at inside ⊢
      rw [List.filter_append, List.map_append]
      exact List.mem_append_left _ inside
    have sizes := named.fillsUnder_eq told number
    rw [List.filter_append, List.filter_cons_of_pos (by simp), List.filter_nil] at sizes
    rw [← @List.length_map _ _ _ OrderResponse.lastQty, sizes]
    exact numberOfFills_eq_iff (tallied _ _ _ mine) positive

end Ledger

/-- An update the user channel sends for an order tells the number of its fills, as the
reports and an order store count them. -/
def OrderResponse.TellsFills (report : OrderResponse) (earlier : List OrderResponse) : Prop :=
  report.orderId.isEmpty = false → ∀ (gateway : CoinbaseWsOrderGateway) (ws seqNum : Nat) (update : UserUpdate),
    (gateway.handleOrderResponse report ws).sent = gateway.sent ++ [(ws, .update seqNum update)] →
      update.numberOfFills = (fillsUnder (earlier ++ [report]) report.orderId).length ∧
        ∀ order ∈ (OrderStore.replay (earlier ++ [report])).find report.orderId,
          update.numberOfFills = order.numFills

/-- What is sent on is a report that is not pending and whose names can be written. -/
theorem CoinbaseWsOrderGateway.handleOrderResponse_sent {gateway : CoinbaseWsOrderGateway} {report : OrderResponse}
    {ws seqNum : Nat} {update : UserUpdate}
    (sent : (gateway.handleOrderResponse report ws).sent = gateway.sent ++ [(ws, .update seqNum update)]) :
    report.orderStatus ≠ .pendingNew ∧ report.update.Dumps ∧ update = report.update := by
  have silent : ∀ frames : List (Nat × UserChannelFrame), frames ≠ frames ++ [(ws, .update seqNum update)] := by
    intro frames same
    have lengths := congrArg List.length same
    rw [List.length_append, List.length_singleton] at lengths
    omega
  unfold handleOrderResponse at sent
  split at sent <;> rename_i pending
  · exact absurd sent (silent _)
  · split at sent <;> rename_i writes
    · unfold sendNumbered at sent
      split at sent
      · exact absurd sent (silent _)
      · have last := List.append_cancel_left sent
        cases last
        exact ⟨pending, writes, rfl⟩
    · exact absurd sent (silent _)

theorem OrderResponse.tellsFills_iff {report : OrderResponse} {earlier : List OrderResponse} :
    report.TellsFills earlier ↔
      (report.orderId.isEmpty = false → report.orderStatus ≠ .pendingNew → report.update.Dumps →
        numberOfFills report = (fillsUnder (earlier ++ [report]) report.orderId).length) := by
  constructor
  · intro tells named pending writes
    refine (tells named (CoinbaseWsOrderGateway.new.connect 0 0) 0 0 report.update ?_).1
    unfold CoinbaseWsOrderGateway.handleOrderResponse
    rw [if_neg pending, if_pos writes]
    rfl
  · intro counts named gateway ws seqNum update sent
    obtain ⟨pending, writes, rfl⟩ := CoinbaseWsOrderGateway.handleOrderResponse_sent sent
    have counted := counts named pending writes
    refine ⟨counted, ?_⟩
    intro order found
    have stored := OrderStore.replay_numFills (earlier ++ [report]) named
    rw [Option.mem_def.mp found] at stored
    exact counted.trans (congrArg Int.ofNat stored).symm

namespace Exchange

variable {β : Type} [OrderBookL3 β] {env : Environment} {config : SymbolConfig} {exchange : Exchange β}

/-- The uuid a new order draws is that of no order reported before. -/
def DrawsFreshName (env : Environment) (exchange : Exchange β) : Input → Prop
  | .newOrder _ _ => ∀ report ∈ exchange.matching.responses, report.orderNum ≠ 0 →
      report.orderId ≠ env.uuid exchange.book.globals.uuidDraws
  | _ => True

instance (env : Environment) (exchange : Exchange β) (input : Input) :
    Decidable (exchange.DrawsFreshName env input) :=
  match input with
  | .newOrder .. => inferInstanceAs (Decidable (∀ report ∈ _, _ → _))
  | .amend .. | .cancel .. | .level2Snapshot .. | .coinbaseEvent .. | .l2Snapshot .. | .l2Diff ..
  | .trades .. | .marketOrder .. | .marketTrade .. | .flushMarketEvents | .subscribe .. | .subscribeServed | .elsewhere .. =>
      isTrue trivial

/-- Every update tells the number of fills exactly where that can be told from the quantities
of its report. -/
theorem tellsFills_iff_countable (reachable : Reachable env config (DrawsFreshName env) exchange)
    (earlier : List OrderResponse) (report : OrderResponse) (later : List OrderResponse)
    (told : exchange.matching.responses = earlier ++ report :: later) :
    report.TellsFills earlier ↔
      (report.orderId.isEmpty = false → report.orderStatus ≠ .pendingNew → report.update.Dumps →
        report.FillsCountable ((fillsUnder (earlier ++ [report]) report.orderId).map OrderResponse.lastQty)) := by
  obtain ⟨named, storied⟩ := reachable.named .freshNames
    (fun _ _ _ permitted => permitted.2) fun exchange input _ _ fresh => by
      refine requestLicence_of_terms (fun _ _ => trivial) (fun _ => trivial) (fun _ _ => trivial)
        (fun _ => trivial) ?_ (fun _ _ _ _ _ _ => ⟨trivial, fun _ _ => trivial⟩) (fun _ _ _ _ _ _ => trivial)
      rintro header msg rfl
      refine ⟨rfl, ?_⟩
      intro report told number
      rw [newOrder_orderId]
      exact fresh report told number
  rw [OrderResponse.tellsFills_iff]
  exact imp_congr_right fun _ => imp_congr_right fun _ => imp_congr_right fun _ =>
    Ledger.numberOfFills_of_told named storied told

/-- Two fills of one size are told apart from one. -/
theorem tellsFills_equalFills :
    let reports := ((Exchange.new (fun _ => default) true : Exchange ReferenceBook).run
      (.counted fun _ => default) (.reference .cancelResting)
      [.limit 1 .buy 100 6, .limit 2 .sell 100 3, .limit 3 .sell 100 3]).matching.responses
    (reports[9]?.getD default).TellsFills (reports.take 9) := by
  intro reports
  have start : Reachable (.counted fun _ => default) (.reference .cancelResting)
      (DrawsFreshName (.counted fun _ => default))
      (Exchange.new (fun _ => default) true : Exchange ReferenceBook) := .new _ _
  have split : reports = reports.take 9 ++ (reports[9]?.getD default) :: [] := by decide +kernel
  refine (tellsFills_iff_countable (start.run (by decide +kernel)) _ _ _ split).mpr fun _ _ _ => ?_
  decide +kernel

/-- A bid of five is filled by two and then by three, and still reports one fill. -/
theorem not_tellsFills_growingFills :
    let reports := ((Exchange.new (fun _ => default) true : Exchange ReferenceBook).run
      (.counted fun _ => default) (.reference .cancelResting)
      [.limit 1 .buy 100 5, .limit 2 .sell 100 2, .limit 3 .sell 100 3]).matching.responses
    ¬ ∀ earlier report later, reports = earlier ++ report :: later → report.TellsFills earlier := by
  intro reports tells
  have split : reports = reports.take 9 ++ (reports[9]?.getD default) :: [] := by decide +kernel
  have counts := OrderResponse.tellsFills_iff.mp (tells _ _ _ split) (by decide +kernel) (by decide +kernel)
    (by decide +kernel)
  revert counts
  decide +kernel

end Exchange

end SlickSim
