import SlickSim.Properties.ReportLifecycle

/-!
# Amendments without a price

An amendment that names no price matches as a market order. What it leaves is reported
cancelled by the rule for new orders, and then rests: the book is updated from the
leaves alone. So such an amendment is sound exactly when nothing is left of it.
-/

set_option autoImplicit false

namespace SlickSim

theorem LifeStep.amended_told {terms : Terms} {before after : Life × List OrderResponse}
    (step : LifeStep terms before after)
    (told : ∀ order, before.1 = .alive .amended order → 0 < order.leavesQuantity ∨
      ∃ report ∈ before.2, report.kind.isTerminal = true) :
    ∀ order, after.1 = .alive .amended order → 0 < order.leavesQuantity ∨
      ∃ report ∈ after.2, report.kind.isTerminal = true := by
  intro order isAmended
  cases step with
  | accept => cases isAmended
  | @touch stage before reports status lastUpdateTime requestTag =>
      cases isAmended
      exact told before rfl
  | ack => cases isAmended
  | refuse => cases isAmended
  | @aggress stage before reports slot price qty timestamp matching positive within =>
      cases isAmended
      by_cases left : 0 < (before.execute price qty timestamp).leavesQuantity
      · exact .inl left
      · right
        refine ⟨_, List.mem_append_right _ (List.mem_singleton_self _), ?_⟩
        rw [OrderResponse.writeExecution_kind, if_pos]
        · rfl
        · rw [Order.execute_leaves] at left ⊢
          omega
  | fillPartly => cases isAmended
  | fillFully => cases isAmended
  | cancelResting => cases isAmended
  | cancelHand => cases isAmended
  | dropDone => cases isAmended
  | dropFilled => cases isAmended
  | rest => cases isAmended
  | startAmend => cases isAmended
  | abortAmend => cases isAmended
  | @replace before reports slot requestTime newPrice newQty permitted =>
      by_cases filled : newQty ≤ before.cumQuantity
      · rw [decide_eq_true filled] at isAmended
        cases isAmended
      · rw [decide_eq_false filled] at isAmended
        cases isAmended
        left
        show 0 < if before.cumQuantity ≥ newQty then 0 else newQty - before.cumQuantity
        rw [if_neg filled]
        omega
  | cancelAmended => cases isAmended
  | amendRests => cases isAmended
  | amendGone => cases isAmended
  | startCancel => cases isAmended

namespace Exchange

variable {β : Type} [OrderBookL3 β] {env : Environment} {config : SymbolConfig}
  {exchange : Exchange β} {allowed : Exchange β → Input → Prop} {header : RequestHeader}
  {msg : ModifyOrderMessage} {ref : Nat}

/-- Some report says that the order has ended. -/
def Closed (exchange : Exchange β) (id : Nat) : Prop :=
  ∃ report ∈ exchange.reportsOn id, report.kind.isTerminal = true

instance (exchange : Exchange β) (id : Nat) : Decidable (exchange.Closed id) :=
  inferInstanceAs (Decidable (∃ report ∈ _, _))

/-- No order rests at the null price. -/
def AllPriced (exchange : Exchange β) : Prop :=
  ∀ order ∈ OrderBookL3.allOrders exchange.book.l3, order.price ≠ nullPrice

/-- An order has been reported ended exactly when it is out of the book, and no order rests
at the null price, neither when the request comes nor after it. -/
def NoZombie (before after : Exchange β) (id : Nat) : Prop :=
  (after.Closed id ↔ after.OutOfBook id) ∧ before.AllPriced ∧ after.AllPriced

private theorem all_licence (exchange : Exchange β) (input : Input) :
    exchange.RequestLicence (Terms.all.permit env) env config input :=
  requestLicence_of_terms (fun _ _ => trivial) (fun _ => trivial) (fun _ _ => trivial) (fun _ => trivial)
    (fun _ _ _ => trivial) (fun _ _ _ _ _ _ => ⟨trivial, fun _ _ => trivial⟩) (fun _ _ _ _ _ _ => trivial)

/-- Orders that rested before, at the prices they have, are as well priced as those were. -/
private theorem AllPriced.of_entries {before after : Exchange β} (priced : before.AllPriced)
    (rested : ∀ id resting, after.ledger.entry id = some resting →
      ∃ old, before.ledger.entry id = some old ∧ old.price = resting.price) :
    after.AllPriced := by
  intro order member unpriced
  have found : after.ledger.entry order.orderId = some order :=
    OrderBookL3.findOrder_eq_some.mpr ⟨member, rfl⟩
  obtain ⟨old, foundOld, samePrice⟩ := rested _ _ found
  exact priced old (OrderBookL3.findOrder_eq_some.mp foundOld).1 (samePrice.trans unpriced)

section Amends

variable (reachable : Reachable env config allowed exchange) (listed : header.symbol = config.symbol)
  (selected : selectOrder exchange.book msg.clientOrderId msg.orderId = some ref)

include reachable selected in
/-- An amendment that filled its order reported the fill. -/
private theorem closed_of_swept {swept : Ledger}
    (sweeps : exchange.AmendSweeps env config header msg ref swept)
    (more : (exchange.matching.order ref).cumQuantity < msg.newQty)
    (filled : (swept.heap ref).leavesQuantity = 0) :
    ∃ report ∈ swept.reports (exchange.matching.order ref).id, report.kind.isTerminal = true := by
  have inv := reachable.represents.1
  have inside := selectOrder_registered inv selected
  obtain ⟨sweptInv, -, -, terms, -⟩ := AmendSweeps.spec selected inv sweeps
  have nonzero : (exchange.matching.order ref).id ≠ 0 := (inv.indexed.registered_owned inside).1
  obtain ⟨life, lives, past⟩ := reachable.lived .all
    (fun exchange input _ _ _ => all_licence exchange input) nonzero
  have run : Micros env (Terms.all.permit env) (.none, exchange.ledger) (.amended ref, swept) := by
    have replaces : Micros env (Terms.all.permit env) (.none, exchange.ledger) _ :=
      amendedLedger_micros header msg inside trivial trivial
    rw [decide_eq_false (Int.not_le.mpr more)] at replaces
    exact replaces.trans sweeps.sweeps.micros
  obtain ⟨life', lives', path⟩ := run.livesOn inv nonzero lives
  have sameId : (swept.heap ref).id = (exchange.matching.order ref).id := terms.id
  have told : ∀ state, Relation.ReflTransGen (LifeStep Terms.all) (.unborn, []) state →
      ∀ order, state.1 = .alive .amended order → 0 < order.leavesQuantity ∨
        ∃ report ∈ state.2, report.kind.isTerminal = true := by
    intro state run
    induction run with
    | refl => rintro _ ⟨⟩
    | tail _ step ih => exact step.amended_told ih
  rw [← sameId] at lives'
  have isAmended := lives'.of_held sweptInv (show (Hand.amended ref).held = _ from rfl)
  have closed := told _ (past.trans path) (swept.heap ref) isAmended
  rw [filled] at closed
  exact closed.resolve_left (Int.lt_irrefl 0)

include reachable selected in
/-- What rests after an amendment has swept rested before, at its price. -/
private theorem swept_entries {swept : Ledger}
    (sweeps : exchange.AmendSweeps env config header msg ref swept) {id : Nat} {resting : BookOrder}
    (found : swept.entry id = some resting) :
    ∃ old, exchange.ledger.entry id = some old ∧ old.price = resting.price := by
  have inv := reachable.represents.1
  have inside := selectOrder_registered inv selected
  have amendedInv : (exchange.amendedLedger env header msg ref).Represents (.amended ref) :=
    amendedLedger_represents header msg inv inside
  obtain ⟨old, foundOld, smaller⟩ := (sweeps.sweeps.takenFrom amendedInv).shrinks found
  exact ⟨old, foundOld, smaller.price.symm⟩

include reachable listed selected in
private theorem noZombie_of_refused (refuses : exchange.RefusesAmend config ref msg.newPrice msg.newQty) :
    NoZombie exchange (exchange.handleModifyOrderRequest env config header msg)
        (exchange.matching.order ref).id ↔
      exchange.AllPriced ∧ ¬ exchange.Closed (exchange.matching.order ref).id := by
  have inv := reachable.represents.1
  have inside := selectOrder_registered inv selected
  have nonzero : (exchange.matching.order ref).id ≠ 0 := (inv.indexed.registered_owned inside).1
  let after := exchange.handleModifyOrderRequest env config header msg
  have isAfter : after.ledger = exchange.refusedAmend env header msg ref :=
    handleModifyOrderRequest_refused listed selected inv refuses
  have stays : ¬ after.OutOfBook (exchange.matching.order ref).id := by
    rintro ⟨-, nothing, -⟩
    have nothing : after.ledger.owner (exchange.matching.order ref).id = none := nothing
    rw [isAfter] at nothing
    rw [show (exchange.refusedAmend env header msg ref).owner (exchange.matching.order ref).id = some ref
      from inside] at nothing
    cases nothing
  have entries : after.ledger.entry = exchange.ledger.entry := by
    rw [isAfter]
    rfl
  have marked : ((exchange.ledger.beginAmend env ref header.requestTag header.timeStamp).heap ref).id =
      (exchange.matching.order ref).id := by
    rw [beginAmend_order]
    rfl
  have closed : after.Closed (exchange.matching.order ref).id ↔
      exchange.Closed (exchange.matching.order ref).id := by
    let begun := exchange.ledger.beginAmend env ref header.requestTag header.timeStamp
    have last : after.ledger.reports (exchange.matching.order ref).id =
        begun.reports (exchange.matching.order ref).id := by
      rw [isAfter]
      exact Ledger.reports_append_other rfl nonzero.symm
    have first : begun.reports (exchange.matching.order ref).id =
        exchange.ledger.reports (exchange.matching.order ref).id ++
          [(env.slot exchange.ledger.responses.length).writeReplacePending (begun.heap ref)
            header.timeStamp] :=
      Ledger.reports_append_self rfl marked
    unfold Closed
    rw [show after.reportsOn (exchange.matching.order ref).id = _ from last, first]
    simp only [List.mem_append, List.mem_singleton, or_and_right, exists_or, exists_eq_left,
      OrderResponse.writeReplacePending_kind]
    exact or_iff_left (by rintro ⟨⟩)
  constructor
  · rintro ⟨told, priced, -⟩
    exact ⟨priced, fun wasClosed => stays (told.mp (closed.mpr wasClosed))⟩
  · rintro ⟨priced, wasOpen⟩
    refine ⟨⟨fun isClosed => absurd (closed.mp isClosed) wasOpen, fun out => absurd out stays⟩, priced, ?_⟩
    refine priced.of_entries fun id resting found => ?_
    rw [entries] at found
    exact ⟨resting, found, rfl⟩

private theorem amendedLedger_leaves (more : (exchange.matching.order ref).cumQuantity < msg.newQty) :
    ((exchange.amendedLedger env header msg ref).heap ref).leavesQuantity =
      msg.newQty - (exchange.matching.order ref).cumQuantity := by
  rw [amendedLedger_order]
  exact if_neg (Int.not_le.mpr more)

section Settled

variable {swept : Ledger} {requeue : Bool} {after : Exchange β}
  (sweeps : exchange.AmendSweeps env config header msg ref swept)
  (isAfter : after.ledger = swept.settleAmend env ref header.timeStamp
    (decide (0 < (swept.heap ref).leavesQuantity)) requeue)

include reachable selected sweeps isAfter

/-- What the sweep left of the order is reported cancelled, and rests. -/
private theorem zombie_of_left (left : 0 < (swept.heap ref).leavesQuantity) :
    after.Closed (exchange.matching.order ref).id ∧ ¬ after.OutOfBook (exchange.matching.order ref).id := by
  obtain ⟨sweptInv, -, -, terms, -⟩ := AmendSweeps.spec selected reachable.represents.1 sweeps
  have sameId : (swept.heap ref).id = (exchange.matching.order ref).id := terms.id
  constructor
  · have responses := Ledger.settleAmend_responses swept env ref header.timeStamp
      (decide (0 < (swept.heap ref).leavesQuantity)) requeue
    rw [if_pos (decide_eq_true left)] at responses
    refine ⟨(env.slot swept.responses.length).writeCancel (swept.heap ref) header.timeStamp, ?_, rfl⟩
    show _ ∈ after.ledger.reports _
    rw [isAfter, Ledger.reports_append_self responses sameId]
    exact List.mem_append_right _ (List.mem_singleton_self _)
  · rintro ⟨-, nothing, -⟩
    obtain ⟨-, owner⟩ := Ledger.settleAmend_rests swept env ref header.timeStamp
      (decide (0 < (swept.heap ref).leavesQuantity)) requeue (Int.ne_of_gt left)
    have nothing : after.ledger.owner (exchange.matching.order ref).id = none := nothing
    have stillIn := sweptInv.indexed.resting_registered (show (Hand.amended ref).resting = some ref from rfl)
    rw [isAfter, owner, ← sameId, show swept.owner (swept.heap ref).id = some ref from stillIn] at nothing
    cases nothing

/-- An order that the sweep filled was told so, and is gone. -/
private theorem ended_of_filled (afterInv : after.ledger.Represents .none)
    (more : (exchange.matching.order ref).cumQuantity < msg.newQty) (filled : (swept.heap ref).leavesQuantity = 0) :
    after.Closed (exchange.matching.order ref).id ∧ after.OutOfBook (exchange.matching.order ref).id := by
  have inv := reachable.represents.1
  have inside := selectOrder_registered inv selected
  obtain ⟨-, -, -, terms, -⟩ := AmendSweeps.spec selected inv sweeps
  have sameId : (swept.heap ref).id = (exchange.matching.order ref).id := terms.id
  have closed : after.Closed (exchange.matching.order ref).id := by
    have responses := Ledger.settleAmend_responses swept env ref header.timeStamp
      (decide (0 < (swept.heap ref).leavesQuantity)) requeue
    rw [filled, if_neg (by decide)] at responses
    obtain ⟨report, member, terminal⟩ := closed_of_swept reachable selected sweeps more filled
    refine ⟨report, ?_, terminal⟩
    show report ∈ after.ledger.reports _
    unfold Ledger.reports at member ⊢
    rw [isAfter, filled, responses]
    exact member
  refine ⟨closed, ?_⟩
  have owned : after.ledger.Owned (exchange.matching.order ref).id := by
    obtain ⟨report, member, -⟩ := closed
    exact Ledger.owned_iff_reports.mpr ⟨(inv.indexed.registered_owned inside).1, List.ne_nil_of_mem member⟩
  refine outOfBook_of_absent afterInv owned ⟨?_, by rintro _ ⟨⟩⟩
  rw [isAfter, (Ledger.settleAmend_gone swept env ref header.timeStamp _ requeue filled).2, ← sameId,
    Function.update_self]

/-- With the order gone, what rests rested before. -/
private theorem allPriced_of_filled (priced : exchange.AllPriced) (filled : (swept.heap ref).leavesQuantity = 0) :
    after.AllPriced := by
  refine priced.of_entries fun id resting found => ?_
  rw [isAfter, (Ledger.settleAmend_gone swept env ref header.timeStamp _ requeue filled).1] at found
  by_cases same : id = (swept.heap ref).id
  · rw [same, Function.update_self] at found
    cases found
  · rw [Function.update_of_ne same] at found
    exact swept_entries reachable selected sweeps found

end Settled

include reachable listed selected in
private theorem noZombie_of_amends (goesOn : ¬ exchange.RefusesAmend config ref msg.newPrice msg.newQty)
    (unpriced : msg.newPrice = nullPrice)
    (more : (exchange.matching.order ref).cumQuantity < msg.newQty) :
    NoZombie exchange (exchange.handleModifyOrderRequest env config header msg)
        (exchange.matching.order ref).id ↔
      exchange.AllPriced ∧
        msg.newQty - (exchange.matching.order ref).cumQuantity ≤
          exchange.crossable config ref nullPrice := by
  have inv := reachable.represents.1
  obtain ⟨swept, sweeps, isAfter⟩ := handleModifyOrderRequest_amends env header listed selected inv goesOn
  have covers : exchange.amendCloses msg ref swept = decide (0 < (swept.heap ref).leavesQuantity) := by
    unfold amendCloses
    simp [Int.not_le.mpr more, unpriced]
  rw [covers] at isAfter
  have exhausts := sweeps.exhausts
  rw [amendedLedger_leaves more, unpriced] at exhausts
  by_cases left : 0 < (swept.heap ref).leavesQuantity
  · obtain ⟨closed, rests⟩ := zombie_of_left reachable selected sweeps isAfter left
    exact iff_of_false (fun sound => rests (sound.1.mp closed))
      fun covered => absurd covered.2 (Int.not_le.mpr (exhausts.mp left))
  · have nonneg := sweeps.nonneg
    have filled : (swept.heap ref).leavesQuantity = 0 := by omega
    have covered := Int.not_lt.mp fun short => left (exhausts.mpr short)
    have afterInv : (exchange.handleModifyOrderRequest env config header msg).ledger.Represents .none :=
      step_represents inv reachable.represents.2 (show exchange.Admits env (.amend header msg) from trivial)
    obtain ⟨closed, out⟩ := ended_of_filled reachable selected sweeps isAfter afterInv more filled
    exact ⟨fun sound => ⟨sound.2.1, covered⟩, fun sound => ⟨⟨fun _ => out, fun _ => closed⟩, sound.1,
      allPriced_of_filled reachable selected sweeps isAfter sound.1 filled⟩⟩

/-- An amendment without a price is sound exactly when no order rests at the null price as
it comes, and it is refused, of an order not reported ended before, or what it leaves open
can all be traded. -/
theorem noZombie_iff (reachable : Reachable env config allowed exchange)
    (listed : header.symbol = config.symbol)
    (selected : selectOrder exchange.book msg.clientOrderId msg.orderId = some ref)
    (unpriced : msg.newPrice = nullPrice)
    (more : (exchange.matching.order ref).cumQuantity < msg.newQty) :
    NoZombie exchange (exchange.handleModifyOrderRequest env config header msg)
        (exchange.matching.order ref).id ↔
      exchange.AllPriced ∧
        (exchange.RefusesAmend config ref nullPrice msg.newQty ∧
            ¬ exchange.Closed (exchange.matching.order ref).id ∨
          ¬ exchange.RefusesAmend config ref nullPrice msg.newQty ∧
            msg.newQty - (exchange.matching.order ref).cumQuantity ≤
              exchange.crossable config ref nullPrice) := by
  by_cases refuses : exchange.RefusesAmend config ref nullPrice msg.newQty
  · simp only [refuses, true_and, not_true_eq_false, false_and, or_false]
    exact noZombie_of_refused reachable listed selected (unpriced ▸ refuses)
  · simp only [refuses, false_and, not_false_eq_true, true_and, false_or]
    exact noZombie_of_amends reachable listed selected (unpriced ▸ refuses) unpriced more

end Amends

/-- An amendment of the order with the first counted client order id. -/
private def unpricedMessage (newQty : Int) : ModifyOrderMessage :=
  { userId := default, orderId := default, clientOrderId := Environment.countedName 1
    newPrice := nullPrice, newQty }

/-- An offer takes all of the amended bid; the bid left behind keeps its price. -/
theorem noZombie_covered :
    let exchange := (Exchange.new (fun _ => default) true : Exchange ReferenceBook).run
      (.counted fun _ => default) (.reference .cancelResting)
      [.limit 1 .buy 100 10, .limit 2 .sell 101 20, .limit 3 .buy 99 5]
    NoZombie exchange (exchange.handleModifyOrderRequest (.counted fun _ => default)
      (.reference .cancelResting) Input.header (unpricedMessage 12)) 1 := by
  have start : Reachable (.counted fun _ => default) (.reference .cancelResting) (fun _ _ => True)
      (Exchange.new (fun _ => default) true : Exchange ReferenceBook) := .new _ _
  intro exchange
  have reachable : Reachable (.counted fun _ => default) (.reference .cancelResting) (fun _ _ => True)
      exchange := start.run (by decide +kernel)
  have selected : selectOrder exchange.book (unpricedMessage 12).clientOrderId
      (unpricedMessage 12).orderId = some 1 := by decide +kernel
  have priced : exchange.AllPriced := by
    unfold AllPriced
    decide +kernel
  exact (noZombie_iff reachable rfl selected rfl (by decide +kernel)).mpr
    ⟨priced, .inr ⟨by decide +kernel, by decide +kernel⟩⟩

/-- With no offers, a resting bid that is amended without a price is reported cancelled and
rests at the null price. -/
theorem zombie_of_unpricedAmendment :
    let exchange := (Exchange.new (fun _ => default) true : Exchange ReferenceBook).run
      (.counted fun _ => default) (.reference .cancelResting) [.limit 1 .buy 100 10]
    ¬ NoZombie exchange (exchange.handleModifyOrderRequest (.counted fun _ => default)
      (.reference .cancelResting) Input.header (unpricedMessage 12)) 1 := by
  intro exchange
  rintro ⟨-, -, priced⟩
  unfold AllPriced at priced
  revert priced
  decide +kernel

end Exchange

end SlickSim
