import SlickSim.Lib.Along
import SlickSim.Properties.ReportLifecycle

/-!
# Quantities on the reports of one order

A report's cumulative quantity is what the trades reported so far add up to. The
reports of a pending replacement and of a pending cancel say zero instead, so the law
holds as long as no order that has traded is amended or cancelled.
-/

set_option autoImplicit false

namespace SlickSim

/-- What the trades among some reports add up to. -/
def tradedQty (reports : List OrderResponse) : Int :=
  ((reports.filter fun report => decide (report.execType = .trade)).map OrderResponse.lastQty).sum

theorem tradedQty_append_trade {reports : List OrderResponse} {report : OrderResponse}
    (trade : report.execType = .trade) :
    tradedQty (reports ++ [report]) = tradedQty reports + report.lastQty := by
  unfold tradedQty
  rw [List.filter_append, List.filter_cons_of_pos (by simp [trade]), List.map_append, List.sum_append]
  simp

theorem tradedQty_append_other {reports : List OrderResponse} {report : OrderResponse}
    (other : report.execType ≠ .trade) : tradedQty (reports ++ [report]) = tradedQty reports := by
  unfold tradedQty
  rw [List.filter_append, List.filter_cons_of_neg (by simp [other]), List.filter_nil, List.append_nil]

/-- What the quantities of a report owe to the reports before it. -/
structure OrderResponse.Accounts (report : OrderResponse) (earlier : List OrderResponse) : Prop where
  cum : report.cumQty = tradedQty (earlier ++ [report])
  whole : report.execType ≠ .canceled → report.cumQty ≤ report.qty →
    report.qty = report.cumQty + report.leavesQty
  /-- The assertions of `sendOrderNewPending` and `sendOrderCancelPending`. -/
  asserted : report.kind = .pendingNew ∨ report.kind = .pendingCancel → report.leavesQty = report.qty

/-- Every report accounts for the ones before it. -/
def Accounted (reports : List OrderResponse) : Prop :=
  ∀ earlier report later, reports = earlier ++ report :: later → report.Accounts earlier

theorem Accounted.append {reports : List OrderResponse} {report : OrderResponse}
    (accounted : Accounted reports) (accounts : report.Accounts reports) :
    Accounted (reports ++ [report]) :=
  forall_split_append accounted accounts

/-- Amendments and cancels find the order unfilled. -/
def Terms.unfilled : Terms where
  accept := fun _ _ _ => True
  reject := fun _ _ => True
  refuse := True
  startAmend := fun order => order.cumQuantity = 0
  abortAmend := fun _ => True
  replace := fun _ _ _ _ => True
  amendRests := fun _ _ => True
  cancel := fun order => order.cumQuantity = 0

/-- Where the order's quantity is what it has left and what it has filled. -/
def Stage.Whole : Stage → Order → Prop
  | .pending, order => order.cumQuantity = 0 ∧ order.quantity = order.leavesQuantity
  | .done, _ => True
  | .emptied, order => order.leavesQuantity = 0 ∧ order.quantity ≤ order.cumQuantity
  | .closing, order => order.leavesQuantity = 0 ∨ order.quantity = order.leavesQuantity + order.cumQuantity
  | _, order => order.quantity = order.leavesQuantity + order.cumQuantity

/-- What the reports account for. -/
def Life.Accounts : Life → List OrderResponse → Prop
  | .alive stage order, reports =>
      Accounted reports ∧ tradedQty reports = order.cumQuantity ∧ stage.Whole order
  | _, reports => Accounted reports

section Reports

variable {reports : List OrderResponse} {slot : OrderResponse} {order : Order} {requestTime : Nat}

/-- A fill is accounted for, whichever side it is on. -/
private theorem execution_accounts {price qty : Int} {timestamp : Nat} {aggressor : Bool}
    (accounted : Accounted reports) (traded : tradedQty reports = order.cumQuantity)
    (whole : order.quantity = order.leavesQuantity + order.cumQuantity) :
    let filled := order.execute price qty timestamp
    let next := reports ++ [slot.writeExecution filled aggressor]
    Accounted next ∧ tradedQty next = filled.cumQuantity ∧
      filled.quantity = filled.leavesQuantity + filled.cumQuantity := by
  intro filled next
  have trades : tradedQty next = filled.cumQuantity := by
    rw [tradedQty_append_trade rfl, traded]
    rfl
  have sum : filled.quantity = filled.leavesQuantity + filled.cumQuantity := by
    rw [Order.execute_quantity, Order.execute_leaves, Order.execute_cum]
    omega
  refine ⟨accounted.append ⟨trades.symm, fun _ _ => ?_, ?_⟩, trades, sum⟩
  · show filled.quantity = filled.cumQuantity + filled.leavesQuantity
    omega
  · rw [OrderResponse.writeExecution_kind]
    split <;> rintro (⟨⟨⟩⟩ | ⟨⟨⟩⟩)

/-- A report that is no trade is accounted for when it carries what has been filled. -/
private theorem other_accounts (report : OrderResponse) (accounted : Accounted reports)
    (other : report.execType ≠ .trade) (cum : report.cumQty = tradedQty reports)
    (whole : report.execType ≠ .canceled → report.cumQty ≤ report.qty →
      report.qty = report.cumQty + report.leavesQty)
    (asserted : report.kind = .pendingNew ∨ report.kind = .pendingCancel → report.leavesQty = report.qty) :
    Accounted (reports ++ [report]) ∧ tradedQty (reports ++ [report]) = tradedQty reports := by
  have same : tradedQty (reports ++ [report]) = tradedQty reports := tradedQty_append_other other
  exact ⟨accounted.append ⟨cum.trans same.symm, whole, asserted⟩, same⟩

private theorem cancel_accounts (slot : OrderResponse) (requestTime : Nat) (accounted : Accounted reports)
    (traded : tradedQty reports = order.cumQuantity) :
    Accounted (reports ++ [slot.writeCancel order requestTime]) ∧
      tradedQty (reports ++ [slot.writeCancel order requestTime]) = tradedQty reports := by
  refine other_accounts _ accounted (by rintro ⟨⟩) traded.symm (fun notCanceled => absurd rfl notCanceled) ?_
  rintro (⟨⟨⟩⟩ | ⟨⟨⟩⟩)

end Reports

theorem LifeStep.accounts {before after : Life × List OrderResponse} (step : LifeStep .unfilled before after)
    (told : before.1.Accounts before.2) : after.1.Accounts after.2 := by
  cases step with
  | @accept past slot order requestTime named whole unfilled unpriced permitted =>
      have nothing : Accounted [] := by
        intro earlier report later split
        cases earlier <;> cases split
      have accounts := other_accounts (slot.writeNewPending order requestTime) nothing (by rintro ⟨⟩) rfl
        (fun _ _ => by
          show order.quantity = 0 + order.leavesQuantity
          omega)
        (fun _ => whole)
      refine ⟨accounts.1, accounts.2.trans unfilled.symm, unfilled, whole.symm⟩
  | @touch stage order reports status lastUpdateTime requestTag =>
      obtain ⟨accounted, traded, whole⟩ := told
      refine ⟨accounted, traded, ?_⟩
      cases stage <;> exact whole
  | @ack order reports slot requestTime =>
      obtain ⟨accounted, traded, unfilled, whole⟩ := told
      have accounts := other_accounts (slot.writeAck order requestTime) accounted (by rintro ⟨⟩)
        (unfilled.symm.trans traded.symm)
        (fun _ _ => by
          show order.quantity = 0 + order.leavesQuantity
          omega)
        (by rintro (⟨⟨⟩⟩ | ⟨⟨⟩⟩))
      refine ⟨accounts.1, accounts.2.trans traded, ?_⟩
      show order.quantity = order.leavesQuantity + order.cumQuantity
      omega
  | refuse permitted => exact told.1
  | aggress matching positive within =>
      obtain ⟨accounted, traded, whole⟩ := told
      rcases matching with rfl | rfl <;> exact execution_accounts accounted traded whole
  | fillPartly positive within =>
      obtain ⟨accounted, traded, whole⟩ := told
      exact execution_accounts accounted traded whole
  | fillFully =>
      obtain ⟨accounted, traded, whole⟩ := told
      exact (execution_accounts accounted traded whole).1
  | cancelResting rests =>
      obtain ⟨accounted, traded, -⟩ := told
      exact (cancel_accounts _ _ accounted traded).1
  | @cancelHand order reports slot requestTime unrestable unfinished =>
      obtain ⟨accounted, traded, -⟩ := told
      have accounts := cancel_accounts slot requestTime accounted traded
      exact ⟨accounts.1, accounts.2.trans traded, trivial⟩
  | dropDone => exact told.1
  | dropFilled filled traded => exact told.1
  | rest left => exact told
  | @startAmend order reports slot requestTime now requestTag permitted =>
      obtain ⟨accounted, traded, whole⟩ := told
      have unfilled : order.cumQuantity = 0 := permitted
      have whole : order.quantity = order.leavesQuantity + order.cumQuantity := whole
      have accounts := other_accounts
        (slot.writeReplacePending (order.touch .pendingReplace now requestTag) requestTime)
        accounted (by rintro ⟨⟩) (unfilled.symm.trans traded.symm)
        (fun _ _ => by
          show order.quantity = 0 + order.leavesQuantity
          omega)
        (by rintro (⟨⟨⟩⟩ | ⟨⟨⟩⟩))
      exact ⟨accounts.1, accounts.2.trans traded, whole⟩
  | abortAmend permitted => exact told
  | @replace order reports slot requestTime newPrice newQty permitted =>
      obtain ⟨accounted, traded, whole⟩ := told
      have leavesIs : (order.replace newPrice newQty).leavesQuantity =
        if order.cumQuantity ≥ newQty then 0 else newQty - order.cumQuantity := rfl
      have accounts := other_accounts
        (slot.writeModify (order.replace newPrice newQty) newPrice newQty requestTime)
        accounted (by rintro ⟨⟩) traded.symm
        (fun _ within => by
          have within : order.cumQuantity ≤ newQty := within
          show newQty = order.cumQuantity + (order.replace newPrice newQty).leavesQuantity
          rw [leavesIs]
          split <;> omega)
        (by rintro (⟨⟨⟩⟩ | ⟨⟨⟩⟩))
      refine ⟨accounts.1, accounts.2.trans traded, ?_⟩
      by_cases filled : newQty ≤ order.cumQuantity
      · rw [decide_eq_true filled]
        exact ⟨leavesIs.trans (if_pos filled), filled⟩
      · rw [decide_eq_false filled]
        show newQty = (order.replace newPrice newQty).leavesQuantity + order.cumQuantity
        rw [leavesIs, if_neg filled]
        omega
  | @cancelAmended stage order reports slot requestTime unrestable =>
      obtain ⟨accounted, traded, whole⟩ := told
      have accounts := cancel_accounts slot requestTime accounted traded
      refine ⟨accounts.1, accounts.2.trans traded, ?_⟩
      rcases unrestable with rfl | ⟨rfl, -⟩
      · exact .inl whole.1
      · exact .inr whole
  | amendRests held left permitted =>
      obtain ⟨accounted, traded, whole⟩ := told
      refine ⟨accounted, traded, ?_⟩
      rcases held with rfl | rfl
      · exact whole
      · exact whole.resolve_left (Int.ne_of_gt left)
  | amendGone held filled => exact told.1
  | @startCancel order reports slot requestTime requestTag permitted =>
      obtain ⟨accounted, traded, whole⟩ := told
      have unfilled : order.cumQuantity = 0 := permitted
      have whole : order.quantity = order.leavesQuantity + order.cumQuantity := whole
      have accounts := other_accounts
        (slot.writeCancelPending
          (order.touch .pendingCancel order.lastUpdateTime requestTag) requestTime)
        accounted (by rintro ⟨⟩) (unfilled.symm.trans traded.symm)
        (fun _ _ => by
          show order.quantity = 0 + order.leavesQuantity
          omega)
        (fun _ => by
          show order.leavesQuantity = order.quantity
          omega)
      exact ⟨accounts.1, accounts.2.trans traded, whole⟩

theorem Life.accounts_of_run {life : Life} {reports : List OrderResponse}
    (run : Relation.ReflTransGen (LifeStep .unfilled) (.unborn, []) (life, reports)) :
    Accounted reports := by
  have general : ∀ state, Relation.ReflTransGen (LifeStep .unfilled) (.unborn, []) state →
      state.1.Accounts state.2 := by
    intro state run
    induction run with
    | refl =>
        intro earlier report later split
        cases earlier <;> cases split
    | tail _ step ih => exact step.accounts ih
  have accounts := general _ run
  cases life with
  | alive stage order => exact accounts.1
  | unborn => exact accounts
  | turnedAway => exact accounts
  | gone => exact accounts

namespace Exchange

variable {β : Type} [OrderBookL3 β] {env : Environment} {config : SymbolConfig}
  {exchange : Exchange β}

/-- An amendment or a cancel that finds its order finds it unfilled. -/
def WorksOnUnfilled (config : SymbolConfig) (exchange : Exchange β) : Input → Prop
  | .amend header msg => header.symbol = config.symbol →
      ∀ ref ∈ selectOrder exchange.book msg.clientOrderId msg.orderId,
        (exchange.matching.order ref).cumQuantity = 0
  | .cancel header msg => header.symbol = config.symbol →
      ∀ ref ∈ selectOrder exchange.book msg.clientOrderId msg.orderId,
        (exchange.matching.order ref).cumQuantity = 0
  | _ => True

instance (config : SymbolConfig) (exchange : Exchange β) (input : Input) :
    Decidable (exchange.WorksOnUnfilled config input) :=
  match input with
  | .amend .. | .cancel .. => inferInstanceAs (Decidable (_ → ∀ ref ∈ _, _ = _))
  | .newOrder .. | .level2Snapshot .. | .coinbaseEvent .. | .l2Snapshot .. | .l2Diff .. | .trades ..
  | .marketOrder .. | .marketTrade .. | .flushMarketEvents | .subscribe .. | .subscribeServed | .elsewhere .. => isTrue trivial

/-- As long as amendments and cancels find their orders unfilled, every report accounts
for the trades before it. -/
theorem accounted_of_reachable (reachable : Reachable env config (WorksOnUnfilled config) exchange)
    {id : Nat} (nonzero : id ≠ 0) : Accounted (exchange.reportsOn id) := by
  obtain ⟨life, -, past⟩ := reachable.lived .unfilled (fun exchange input _ _ unfilled => by
    refine requestLicence_of_terms (fun _ _ => trivial) (fun _ => trivial) (fun _ _ => trivial)
      (fun _ => trivial) (fun _ _ _ => trivial) ?_ ?_
    · rintro header msg ref rfl listed selected
      exact ⟨unfilled listed ref selected, fun _ _ => trivial⟩
    · rintro header msg ref rfl listed selected
      exact unfilled listed ref selected) nonzero
  exact Life.accounts_of_run past

/-- A bid is amended and then filled in two steps. -/
theorem accounted_amendedThenFilled :
    Accounted (((Exchange.new (fun _ => default) true : Exchange ReferenceBook).run
      (.counted fun _ => default) (.reference .cancelResting)
      [.limit 1 .buy 100 10, .reprice 1 101 8, .limit 2 .sell 100 4, .limit 3 .sell 100 4]).reportsOn 1) := by
  have start : Reachable (.counted fun _ => default) (.reference .cancelResting)
      (WorksOnUnfilled (.reference .cancelResting))
      (Exchange.new (fun _ => default) true : Exchange ReferenceBook) := .new _ _
  exact accounted_of_reachable (start.run (by decide +kernel)) (by decide)

/-- The cancel of a partly filled bid is reported pending with nothing filled. -/
theorem not_accounted_cancelPartlyFilled :
    ¬ Accounted (((Exchange.new (fun _ => default) true : Exchange ReferenceBook).run
      (.counted fun _ => default) (.reference .cancelResting)
      [.limit 1 .buy 100 10, .limit 2 .sell 100 4, .withdraw 1]).reportsOn 1) := by
  intro accounted
  let reports := ((Exchange.new (fun _ => default) true : Exchange ReferenceBook).run
      (.counted fun _ => default) (.reference .cancelResting)
      [.limit 1 .buy 100 10, .limit 2 .sell 100 4, .withdraw 1]).reportsOn 1
  have split : reports = reports.take 3 ++ (reports[3]?.getD default) :: reports.drop 4 := by decide +kernel
  have wrong := (accounted _ _ _ split).cum
  revert wrong
  decide +kernel

end Exchange

end SlickSim
