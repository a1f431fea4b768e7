import SlickSim.Properties.ReportLifecycle

/-!
# How a new-order request ends

A request for a quantity of at least zero ends with the order in the book, or with
one terminal report. A request for less than nothing is acknowledged and forgotten.
-/

set_option autoImplicit false

namespace SlickSim

open ReportKind (Open Ended)

/-! ## Which reports a run of effects adds -/

theorem Ledger.onOrderUpdate_responses (ledger : Ledger) (update : OrderUpdate) :
    (ledger.onOrderUpdate update).responses = ledger.responses := by
  unfold Ledger.onOrderUpdate
  split
  · rfl
  · split <;> rfl

theorem Ledger.setEntry_responses (ledger : Ledger) (id : Nat) (next : Option BookOrder) (timestamp : Nat) :
    (ledger.setEntry id next timestamp).responses = ledger.responses := by
  have kept : ∀ (updates : List OrderUpdate) (start : Ledger),
      (updates.foldl Ledger.onOrderUpdate start).responses = start.responses := by
    intro updates
    induction updates with
    | nil => exact fun _ => rfl
    | cons update rest ih => exact fun start => (ih _).trans (start.onOrderUpdate_responses update)
  exact kept _ _

/-- The effect adds reports, none of them a reject. -/
def Ledger.AddsNoReject (before after : Ledger) : Prop :=
  ∃ added, after.responses = before.responses ++ added ∧
    ∀ response ∈ added, response.execType ≠ .rejected

namespace Ledger.AddsNoReject

variable {before between after : Ledger} {env : Environment}

theorem of_same (same : after.responses = before.responses) : before.AddsNoReject after :=
  ⟨[], by rw [same, List.append_nil], by rintro _ ⟨⟩⟩

theorem of_report {response : OrderResponse} (published : after.responses = before.responses ++ [response])
    (fine : response.execType ≠ .rejected) : before.AddsNoReject after := by
  refine ⟨_, published, ?_⟩
  intro other member
  rw [List.mem_singleton.mp member]
  exact fine

theorem trans (first : before.AddsNoReject between) (second : between.AddsNoReject after) :
    before.AddsNoReject after := by
  obtain ⟨earlier, isEarlier, fine⟩ := first
  obtain ⟨last, isLast, alsoFine⟩ := second
  refine ⟨earlier ++ last, by rw [isLast, isEarlier, List.append_assoc], ?_⟩
  intro response member
  rcases List.mem_append.mp member with old | new
  · exact fine response old
  · exact alsoFine response new

end Ledger.AddsNoReject

open Ledger.AddsNoReject (of_same of_report)

theorem Sweep.addsNoReject {env : Environment} {hand : Hand} {side : BookSide} {before after : Ledger}
    (swept : Sweep env hand side before after) : before.AddsNoReject after := by
  cases swept with
  | tick later => exact of_same rfl
  | hitPhantom rests swept phantom positive within => exact of_same (Ledger.setEntry_responses ..)
  | hitPartly rests swept ours apart positive within => exact of_report rfl (by rintro ⟨⟩)
  | hitFully rests swept ours apart => exact of_report rfl (by rintro ⟨⟩)
  | cancelOwn rests swept ours apart => exact of_report rfl (by rintro ⟨⟩)
  | aggress held positive within => exact of_report rfl (by rintro ⟨⟩)

theorem Micro.addsNoReject {env : Environment} {permit : Permit} {before after : Hand × Ledger}
    (step : Micro env permit before after) (forbidden : ∀ ledger name, ¬ permit.reject ledger name) :
    before.2.AddsNoReject after.2 := by
  cases step with
  | sweep swept => exact swept.addsNoReject
  | reject permitted => exact absurd permitted (forbidden _ _)
  | rejectRefused permitted => exact absurd permitted (forbidden _ _)
  | accept => exact of_report rfl (by rintro ⟨⟩)
  | ack => exact of_report rfl (by rintro ⟨⟩)
  | cancelHand => exact of_report rfl (by rintro ⟨⟩)
  | startAmend registered permitted isMarked =>
      subst isMarked
      exact of_report rfl (by rintro ⟨⟩)
  | replace permitted isReplaced =>
      subst isReplaced
      exact of_report rfl (by rintro ⟨⟩)
  | cancelAmended => exact of_report rfl (by rintro ⟨⟩)
  | startCancel registered permitted isMarked =>
      subst isMarked
      exact of_report rfl (by rintro ⟨⟩)
  | finishCancel => exact of_report rfl (by rintro ⟨⟩)
  | rest later drawn left restable clear isRanked permitted =>
      subst isRanked
      exact of_same rfl
  | amendRests held later left clear isRanked place permitted =>
      subst isRanked
      exact of_same rfl
  | amendGone held later filled mine isRanked =>
      subst isRanked
      exact of_same rfl
  | addPhantom => exact of_same (Ledger.setEntry_responses ..)
  | resizePhantom => exact of_same (Ledger.setEntry_responses ..)
  | movePhantom => exact of_same (Ledger.setEntry_responses ..)
  | dropPhantom => exact of_same (Ledger.setEntry_responses ..)
  | _ => exact of_same rfl

theorem Micros.addsNoReject {env : Environment} {permit : Permit} {before after : Hand × Ledger}
    (run : Micros env permit before after) (forbidden : ∀ ledger name, ¬ permit.reject ledger name) :
    before.2.AddsNoReject after.2 := by
  induction run with
  | refl => exact of_same rfl
  | tail _ step ih => exact ih.trans (step.addsNoReject forbidden)

/-! ## The life of the new order -/

/-- One order is accepted, for a given quantity, and none is amended, cancelled or
rejected. -/
def Terms.newOnly (qty : Int) : Terms where
  accept := fun _ _ order => order.quantity = qty
  reject := fun _ _ => False
  refuse := True
  startAmend := fun _ => False
  abortAmend := fun _ => True
  replace := fun _ _ _ _ => True
  amendRests := fun _ _ => True
  cancel := fun _ => False

/-- What the reports say of a new order for a given quantity. -/
def Life.Outcome (qty : Int) : Life → List ReportKind → Prop
  | .unborn, kinds => kinds = []
  | .alive .pending order, kinds =>
      kinds = [.pendingNew] ∧ order.leavesQuantity = qty ∧ order.cumQuantity = 0
  | .alive .working order, kinds =>
      0 ≤ order.cumQuantity ∧ order.leavesQuantity + order.cumQuantity = qty ∧
        (Open kinds ∧ (0 < order.leavesQuantity ∨ order.cumQuantity = 0) ∨
          Ended kinds ∧ order.leavesQuantity = 0 ∧ 0 < order.cumQuantity)
  | .alive .done _, kinds => Ended kinds
  | .alive .resting order, kinds => 0 < order.leavesQuantity ∧ Open kinds
  | .alive _ _, _ => False
  | .turnedAway, kinds => kinds = [.pendingNew]
  | .gone, kinds => 0 ≤ qty → Ended kinds

theorem LifeStep.outcome {qty : Int} {before after : Life × List OrderResponse}
    (step : LifeStep (.newOnly qty) before after)
    (told : before.1.Outcome qty (before.2.map OrderResponse.kind)) :
    after.1.Outcome qty (after.2.map OrderResponse.kind) := by
  cases step with
  | accept named whole unfilled unpriced permitted => exact ⟨rfl, whole.trans permitted, unfilled⟩
  | @touch stage order reports status lastUpdateTime requestTag => cases stage <;> exact told
  | ack =>
      obtain ⟨kinds, isQty, unfilled⟩ := told
      refine ⟨by omega, by omega, .inl ⟨⟨[], ?_, by simp⟩, .inr unfilled⟩⟩
      rw [List.map_append, kinds]
      rfl
  | refuse permitted => exact told.1
  | @aggress stage order reports slot price traded timestamp matching positive within =>
      rcases matching with rfl | rfl
      · obtain ⟨nonneg, whole, ⟨isOpen, -⟩ | ⟨-, nothing, -⟩⟩ := told
        · rw [List.map_append]
          have cum : (order.execute price traded timestamp).cumQuantity = order.cumQuantity + traded := rfl
          have leaves : (order.execute price traded timestamp).leavesQuantity =
            order.leavesQuantity - traded := rfl
          refine ⟨by omega, by omega, ?_⟩
          rcases reports_fill isOpen within with ⟨left, still⟩ | ⟨nothing, ended⟩
          · exact .inl ⟨still, .inl left⟩
          · exact .inr ⟨ended, nothing, by omega⟩
        · omega
      · cases told
  | fillPartly positive within =>
      obtain ⟨left, isOpen⟩ := told
      rw [List.map_append]
      rcases reports_fill isOpen (Int.le_of_lt within) with more | ⟨nothing, -⟩
      · exact more
      · rw [Order.execute_leaves] at nothing
        omega
  | fillFully =>
      obtain ⟨left, isOpen⟩ := told
      rw [List.map_append]
      rcases reports_fill isOpen (Int.le_refl _) with ⟨more, -⟩ | ⟨-, ended⟩
      · rw [Order.execute_leaves] at more
        omega
      · exact fun _ => ended
  | cancelResting rests =>
      rw [List.map_append]
      rcases rests with rfl | rfl
      · exact fun _ => told.2.terminal rfl
      · cases told
  | cancelHand unrestable unfinished =>
      obtain ⟨-, -, ⟨isOpen, -⟩ | ⟨-, nothing, some⟩⟩ := told
      · rw [List.map_append]
        exact isOpen.terminal rfl
      · omega
  | dropDone => exact fun _ => told
  | dropFilled filled traded =>
      obtain ⟨nonneg, whole, ⟨-, unfinished⟩ | ⟨ended, -⟩⟩ := told
      · intro some
        omega
      · exact fun _ => ended
  | rest left =>
      obtain ⟨-, -, ⟨isOpen, -⟩ | ⟨-, nothing, -⟩⟩ := told
      · exact ⟨left, isOpen⟩
      · omega
  | startAmend permitted => cases permitted
  | abortAmend permitted => cases told
  | replace permitted => cases told
  | cancelAmended unrestable => rcases unrestable with rfl | ⟨rfl, -⟩ <;> cases told
  | amendRests held left permitted => rcases held with rfl | rfl <;> cases told
  | amendGone held filled => rcases held with rfl | rfl <;> cases told
  | startCancel permitted => cases permitted

theorem Life.outcome_of_run {qty : Int} {life : Life} {reports : List OrderResponse}
    (run : Relation.ReflTransGen (LifeStep (.newOnly qty)) (.unborn, []) (life, reports)) :
    life.Outcome qty (reports.map OrderResponse.kind) := by
  have general : ∀ state, Relation.ReflTransGen (LifeStep (.newOnly qty)) (.unborn, []) state →
      state.1.Outcome qty (state.2.map OrderResponse.kind) := by
    intro state run
    induction run with
    | refl => rfl
    | tail _ step ih => exact step.outcome ih
  exact general _ run

/-! ## The request -/

/-- The report ends its order. -/
def OrderResponse.isTerminal (response : OrderResponse) : Bool :=
  decide (response.orderStatus = .filled ∨ response.orderStatus = .canceled ∨
    response.orderStatus = .rejected)

theorem OrderResponse.isTerminal_eq {response : OrderResponse} (known : response.kind ≠ .other) :
    response.isTerminal = response.kind.isTerminal := by
  unfold OrderResponse.kind at known ⊢
  unfold OrderResponse.isTerminal
  split at known <;> simp_all [ReportKind.isTerminal]

/-- Reports of which all but the last are interim, and the last is or is not the end. -/
def EndsWith (terminal : Bool) (answers : List OrderResponse) : Prop :=
  ∃ earlier last, answers = earlier ++ [last] ∧ last.isTerminal = terminal ∧
    ∀ response ∈ earlier, response.isTerminal = false

namespace ReportKind

theorem Open.endsWith {reports : List OrderResponse} (isOpen : Open (reports.map OrderResponse.kind)) :
    EndsWith false reports := by
  have noTerminal := isOpen.noTerminal
  have none : ∀ response ∈ reports, response.isTerminal = false := by
    obtain ⟨mix, isMix, mixed⟩ := isOpen
    intro response member
    have inside : response.kind ∈ reports.map OrderResponse.kind := List.mem_map_of_mem member
    have known : response.kind ≠ .other := by
      intro unknown
      rw [isMix, unknown] at inside
      have interim := mixed .other (by simpa using inside)
      cases interim
    rw [response.isTerminal_eq known]
    exact noTerminal _ inside
  obtain ⟨mix, isMix, -⟩ := isOpen
  rcases List.eq_nil_or_concat' reports with rfl | ⟨earlier, last, rfl⟩
  · cases isMix
  · exact ⟨earlier, last, rfl, none last (by simp), fun response member =>
      none response (List.mem_append_left _ member)⟩

theorem Ended.endsWith {reports : List OrderResponse} (ended : Ended (reports.map OrderResponse.kind)) :
    EndsWith true reports := by
  obtain ⟨mix, last, isMix, mixed, terminal⟩ := ended
  rcases List.eq_nil_or_concat' reports with rfl | ⟨earlier, final, rfl⟩
  · cases isMix
  · have parts : earlier.map OrderResponse.kind = .pendingNew :: .new :: mix ∧ final.kind = last := by
      have whole : earlier.map OrderResponse.kind ++ [final.kind] =
          (.pendingNew :: .new :: mix) ++ [last] := by simpa using isMix
      exact ⟨(List.append_inj' whole rfl).1, List.singleton_inj.mp (List.append_inj' whole rfl).2⟩
    have isOpen : Open (earlier.map OrderResponse.kind) := ⟨mix, parts.1, mixed⟩
    refine ⟨earlier, final, rfl, ?_, ?_⟩
    · rw [final.isTerminal_eq (by rw [parts.2]; rintro rfl; cases terminal), parts.2]
      exact terminal
    · obtain ⟨before, last, isLast, notLast, others⟩ := isOpen.endsWith
      intro response member
      rw [isLast] at member
      rcases List.mem_append.mp member with inside | inside
      · exact others response inside
      · rw [List.mem_singleton.mp inside]
        exact notLast

end ReportKind

namespace Exchange

variable {β : Type} [OrderBookL3 β] {env : Environment} {config : SymbolConfig}
  {exchange : Exchange β} {header : RequestHeader} {msg : AddOrderMessage}

/-- The responses one step added about an order: reports under its number and rejects. -/
def answersTo (before after : Exchange β) (id : Nat) : List OrderResponse :=
  (after.matching.responses.drop before.matching.responses.length).filter fun response =>
    decide (response.orderNum = id) || decide (response.execType = .rejected)

/-- The order rests and its last report is not terminal, or it does not rest and its last
report is the only terminal one. -/
def Settles (before after : Exchange β) (id : Nat) : Prop :=
  after.InBook id ∧ EndsWith false (before.answersTo after id) ∨
    after.OutOfBook id ∧ EndsWith true (before.answersTo after id)

/-- An order number that was not drawn yet is nowhere in the book. -/
private theorem outOfBook_of_undrawn {after : Exchange β} {id : Nat} (inv : after.ledger.Represents .none)
    (undrawn : after.ledger.globals.nextOrderId ≤ id) : after.OutOfBook id := by
  have unowned : ∀ ref, after.ledger.Registered ref → (after.ledger.heap ref).id ≠ id := by
    intro ref inside same
    have bound := inv.indexed.owned_bound (inv.indexed.registered_owned inside)
    omega
  refine ⟨?_, ?_, ?_⟩
  · cases found : after.ledger.entry id with
    | none => exact found
    | some resting =>
        have bound := inv.indexed.entry_bound found
        omega
  · cases found : after.ledger.owner id with
    | none => exact found
    | some ref => exact absurd (inv.indexed.owner_id found) (unowned ref (inv.indexed.registered found))
  · intro name ref named
    refine unowned ref ?_
    rcases named with named | named
    · exact (inv.indexed.byClient_iff.mp (show after.ledger.byClient name = some ref from named)).2.1
    · exact (inv.indexed.byOrder_iff.mp (show after.ledger.byOrder name = some ref from named)).2.1

/-- A drawn order number that no map knows is nowhere in the book. -/
private theorem outOfBook_of_unregistered {after : Exchange β} {id : Nat}
    (inv : after.ledger.Represents .none) (owned : after.ledger.Owned id)
    (unregistered : after.ledger.owner id = none) : after.OutOfBook id :=
  outOfBook_of_absent inv owned ⟨unregistered, by rintro _ ⟨⟩⟩

omit [OrderBookL3 β] in
theorem answersTo_eq {after : Exchange β} {added : List OrderResponse} (id : Nat)
    (published : after.matching.responses = exchange.matching.responses ++ added) :
    exchange.answersTo after id = added.filter fun response =>
      decide (response.orderNum = id) || decide (response.execType = .rejected) := by
  unfold answersTo
  rw [published, List.drop_left]

/-- The orders in the book are what they were when a new one is accepted. -/
theorem acceptOrder_resolve (inv : exchange.ledger.Represents .none) (id : Nat) :
    (exchange.acceptOrder env config header msg).book.resolve id = exchange.book.resolve id := by
  show ((exchange.acceptOrder env config header msg).ledger.owner id).map
    (exchange.acceptOrder env config header msg).ledger.heap =
    (exchange.ledger.owner id).map exchange.ledger.heap
  rw [acceptOrder_ledger]
  show (exchange.ledger.owner id).map _ = _
  cases found : exchange.ledger.owner id with
  | none => rfl
  | some ref =>
      have live := inv.indexed.live_iff.mpr (.inl (inv.indexed.registered found))
      refine congrArg some (Function.update_of_ne ?_ _ _)
      rintro rfl
      exact env.pool_fresh _ live

section Request

variable {allowed : Exchange β → Input → Prop} (reachable : Reachable env config allowed exchange)
  (admitted : exchange.Admits env (.newOrder header msg))

include reachable admitted

private theorem request_represents :
    (exchange.handleNewOrderRequest env config header msg).ledger.Represents .none :=
  step_represents reachable.represents.1 reachable.represents.2 admitted

private theorem settles_of_rejected
    (wrong : header.symbol ≠ config.symbol ∨ exchange.ClientIdTaken msg.clientOrderId) :
    exchange.Settles (exchange.handleNewOrderRequest env config header msg)
      exchange.book.globals.nextOrderId := by
  have inv := request_represents reachable admitted
  obtain ⟨reason, rejected⟩ := @handleNewOrderRequest_rejects _ _ exchange env config header msg wrong
  rw [rejected] at inv ⊢
  refine .inr ⟨outOfBook_of_undrawn inv le_rfl, ?_⟩
  let reject := (env.slot exchange.matching.responses.length).writeRejectNew header msg reason
    (exchange.book.currentTime env)
  have published : (exchange.onMatching fun state =>
      state.rejectNewOrderRequest env header msg reason).matching.responses =
      exchange.matching.responses ++ [reject] := rfl
  rw [answersTo_eq _ published, List.filter_cons_of_pos (by exact Bool.or_true _), List.filter_nil]
  exact ⟨[], reject, rfl, rfl, by rintro _ ⟨⟩⟩

variable (listed : header.symbol = config.symbol) (free : ¬ exchange.ClientIdTaken msg.clientOrderId)

omit admitted in
private theorem undrawn_reports : exchange.ledger.reports exchange.book.globals.nextOrderId = [] := by
  have inv := reachable.represents.1
  by_contra some
  have owned : exchange.ledger.Owned exchange.book.globals.nextOrderId :=
    Ledger.owned_iff_reports.mpr ⟨Nat.ne_of_gt inv.indexed.numbered, some⟩
  exact Nat.lt_irrefl _ (inv.indexed.owned_bound owned)

omit admitted in
private theorem undrawn_owner : exchange.ledger.owner exchange.book.globals.nextOrderId = none := by
  have inv := reachable.represents.1
  cases found : exchange.ledger.owner exchange.book.globals.nextOrderId with
  | none => rfl
  | some ref =>
      have owned := inv.indexed.registered_owned (inv.indexed.registered found)
      rw [inv.indexed.owner_id found] at owned
      exact absurd (inv.indexed.owned_bound owned) (Nat.lt_irrefl _)

private def pendingReport (exchange : Exchange β) (env : Environment) (config : SymbolConfig)
    (header : RequestHeader) (msg : AddOrderMessage) : OrderResponse :=
  (env.slot exchange.matching.responses.length).writeNewPending
    (exchange.newOrder env config header msg) header.timeStamp

include listed free in
private theorem settles_of_refused {after : MatchState β} {summaries : List TradeSummaryInfo}
    (added : (exchange.acceptOrder env config header msg).matching.addOrder env config
      (env.pool exchange.book.live) header.timeStamp = (.smp, summaries, after))
    (freed : after.ledger = (exchange.acceptOrder env config header msg).ledger.freeOrder
      (env.pool exchange.book.live)) :
    exchange.Settles (exchange.handleNewOrderRequest env config header msg)
      exchange.book.globals.nextOrderId := by
  have inv := request_represents reachable admitted
  have handled := handleNewOrderRequest_ledger listed free added
  rw [if_pos (by decide)] at handled
  let reject := (env.slot after.responses.length).writeRejectNew header msg .smp
    (after.book.currentTime env)
  have responses : after.responses =
      exchange.matching.responses ++ [exchange.pendingReport env config header msg] := by
    have same := congrArg Ledger.responses (freed.trans (congrArg (Ledger.freeOrder · _)
      (acceptOrder_ledger header msg)))
    exact same
  have published : (exchange.handleNewOrderRequest env config header msg).matching.responses =
      exchange.matching.responses ++ [exchange.pendingReport env config header msg, reject] := by
    refine (congrArg Ledger.responses handled).trans ?_
    show after.responses ++ [reject] = _
    rw [responses, List.append_assoc]
    rfl
  have pendingNum : (exchange.pendingReport env config header msg).orderNum =
      exchange.book.globals.nextOrderId := exchange.newOrder_id env config header msg
  refine .inr ⟨outOfBook_of_unregistered inv ?_ ?_, ?_⟩
  · refine ⟨Nat.ne_of_gt reachable.represents.1.indexed.numbered,
      exchange.pendingReport env config header msg, ?_, pendingNum⟩
    rw [show (exchange.handleNewOrderRequest env config header msg).ledger.responses = _ from published]
    simp
  · rw [handled]
    have same := congrArg (fun ledger => ledger.owner exchange.book.globals.nextOrderId)
      (freed.trans (congrArg (Ledger.freeOrder · _) (acceptOrder_ledger header msg)))
    exact same.trans (undrawn_owner reachable)
  · rw [answersTo_eq _ published, List.filter_cons_of_pos (by simp [pendingNum]),
      List.filter_cons_of_pos (by exact Bool.or_true _), List.filter_nil]
    refine ⟨[exchange.pendingReport env config header msg], reject, rfl, rfl, ?_⟩
    intro response member
    rw [List.mem_singleton.mp member]
    rfl

include listed free in
/-- An order for less than nothing ends exactly when it is a fill-or-kill order that finds
nothing to trade with. -/
private theorem settles_of_negative (negative : msg.qty < 0) :
    exchange.Settles (exchange.handleNewOrderRequest env config header msg)
        exchange.book.globals.nextOrderId ↔
      MatchingEngine.CannotFill (exchange.acceptOrder env config header msg).book config.smpMode
        (exchange.newOrder env config header msg) msg.price msg.qty := by
  have inv := request_represents reachable admitted
  let order := exchange.newOrder env config header msg
  let accepted := exchange.acceptOrder env config header msg
  have isOrder : accepted.matching.order (env.pool exchange.book.live) = order := acceptOrder_order ..
  have accepts : Micro env Permit.all (.none, exchange.ledger)
      (.pending (env.pool exchange.book.live), accepted.ledger) :=
    acceptOrder_micro header msg (byClient_of_free free) admitted trivial
  obtain ⟨reason, summaries, after, added, fine, ledgerIs⟩ := @MatchState.addOrder_negative _ _
    accepted.matching env config _ header.timeStamp (accepts.represents reachable.represents.1)
    (by rw [isOrder]; rfl) (by rw [isOrder]; rfl) (by rw [isOrder]; exact negative)
  have handled := handleNewOrderRequest_ledger listed free added
  rw [if_neg (by rcases fine with rfl | rfl <;> decide)] at handled
  rw [ledgerIs, isOrder] at handled
  have acceptedResponses : accepted.ledger.responses =
      exchange.matching.responses ++ [exchange.pendingReport env config header msg] :=
    congrArg Ledger.responses (acceptOrder_ledger header msg)
  have acceptedOwner : accepted.ledger.owner = exchange.ledger.owner := by
    rw [show accepted.ledger = _ from acceptOrder_ledger header msg]
    rfl
  let ack := (env.slot accepted.ledger.responses.length).writeAck order header.timeStamp
  let cancel := (env.slot (accepted.ledger.responses ++ [ack]).length).writeCancel order header.timeStamp
  have num : order.id = exchange.book.globals.nextOrderId := exchange.newOrder_id env config header msg
  have outOfBook : ∀ {more : List OrderResponse},
      (exchange.handleNewOrderRequest env config header msg).ledger.responses =
        accepted.ledger.responses ++ more →
      (exchange.handleNewOrderRequest env config header msg).OutOfBook
        exchange.book.globals.nextOrderId := by
    intro more responses
    refine outOfBook_of_unregistered inv ⟨Nat.ne_of_gt reachable.represents.1.indexed.numbered,
      exchange.pendingReport env config header msg, ?_, num⟩ ?_
    · rw [responses, acceptedResponses]
      simp
    · have kept : ∀ cancelled : Prop, ∀ [Decidable cancelled], (Ledger.freeOrder (if cancelled then
          (accepted.matching.ledger.publish env fun slot => slot.writeAck order header.timeStamp).publish
            env fun slot => slot.writeCancel order header.timeStamp
        else accepted.matching.ledger.publish env fun slot => slot.writeAck order header.timeStamp)
          (env.pool exchange.book.live)).owner = exchange.ledger.owner := by
        intro cancelled _
        split <;> exact acceptedOwner
      rw [handled, kept]
      exact undrawn_owner reachable
  by_cases cannot : MatchingEngine.CannotFill accepted.book config.smpMode order msg.price msg.qty
  · rw [if_pos (show MatchingEngine.CannotFill accepted.matching.book config.smpMode order order.price
      order.quantity from cannot)] at handled
    have responses : (exchange.handleNewOrderRequest env config header msg).ledger.responses =
        accepted.ledger.responses ++ [ack, cancel] := by
      rw [handled]
      exact List.append_assoc ..
    refine iff_of_true (.inr ⟨outOfBook responses, ?_⟩) cannot
    rw [acceptedResponses, List.append_assoc] at responses
    rw [answersTo_eq _ responses, List.filter_eq_self.mpr]
    · refine ⟨[exchange.pendingReport env config header msg, ack], cancel, rfl, rfl, ?_⟩
      intro response member
      rcases List.mem_pair.mp member with rfl | rfl <;> rfl
    · intro response member
      have isNum : response.orderNum = exchange.book.globals.nextOrderId := by
        rcases List.mem_cons.mp member with rfl | member
        · exact num
        · rcases List.mem_pair.mp member with rfl | rfl <;> exact num
      rw [decide_eq_true isNum, Bool.true_or]
  · rw [if_neg (show ¬ MatchingEngine.CannotFill accepted.matching.book config.smpMode order order.price
      order.quantity from cannot)] at handled
    have responses : (exchange.handleNewOrderRequest env config header msg).ledger.responses =
        accepted.ledger.responses ++ [ack] := by
      rw [handled]
      rfl
    have outside := outOfBook responses
    rw [acceptedResponses, List.append_assoc] at responses
    refine iff_of_false ?_ cannot
    rintro (⟨⟨ref, registered, -⟩, -⟩ | ⟨-, earlier, last, answers, terminal, -⟩)
    · rw [outside.2.1] at registered
      cases registered
    · have member : last ∈ exchange.answersTo (exchange.handleNewOrderRequest env config header msg)
          exchange.book.globals.nextOrderId := by
        rw [answers]
        simp
      rw [answersTo_eq _ responses] at member
      rcases List.mem_pair.mp (List.mem_of_mem_filter member) with rfl | rfl
      · cases terminal
      · cases terminal

omit admitted in
/-- An order that was not turned away rests or has ended. -/
private theorem settles_of_lived {after : Exchange β} (inv : after.ledger.Represents .none)
    (reported : after.ledger.Owned exchange.book.globals.nextOrderId) (nonneg : 0 ≤ msg.qty)
    (path : Micros env ((Terms.newOnly msg.qty).permit env) (.none, exchange.ledger) (.none, after.ledger)) :
    exchange.Settles after exchange.book.globals.nextOrderId := by
  have before := undrawn_reports reachable
  have nonzero : exchange.book.globals.nextOrderId ≠ 0 :=
    Nat.ne_of_gt reachable.represents.1.indexed.numbered
  obtain ⟨added, published, unrejected⟩ := path.addsNoReject (fun _ _ forbidden => forbidden)
  obtain ⟨life, lives, past⟩ := path.livesOn reachable.represents.1 nonzero
    (show exchange.ledger.Lives .none exchange.book.globals.nextOrderId .unborn from before)
  rw [show exchange.ledger.reports exchange.book.globals.nextOrderId = [] from before] at past
  have told := Life.outcome_of_run past
  have answers : exchange.answersTo after exchange.book.globals.nextOrderId =
      after.ledger.reports exchange.book.globals.nextOrderId := by
    rw [answersTo_eq _ published]
    unfold Ledger.reports at before ⊢
    rw [published, List.filter_append, before, List.nil_append]
    refine List.filter_congr ?_
    intro response member
    rw [decide_eq_false (unrejected response member), Bool.or_false]
  unfold Settles
  rw [answers]
  cases life with
  | unborn => exact absurd lives (Ledger.owned_iff_reports.mp reported).2
  | alive stage order =>
      obtain ⟨ref, rfl, isNum, held | ⟨rfl, inside, -⟩, -⟩ := lives
      · cases held
      · refine .inl ⟨?_, told.2.endsWith⟩
        rw [← isNum]
        exact inBook_of_registered inv inside
  | turnedAway =>
      obtain ⟨-, -, ⟨pending, reject, inOrder, isNum, -, -, isReject, -⟩ | ⟨ref, held, -⟩⟩ := lives
      · rw [published] at inOrder
        obtain ⟨front, back, whole, inFront, inBack⟩ := List.sublist_append_iff.mp inOrder
        cases front with
        | nil =>
            rw [List.nil_append] at whole
            rw [← whole] at inBack
            exact absurd isReject (unrejected reject (inBack.subset (by simp)))
        | cons first rest =>
            obtain ⟨rfl, -⟩ := List.cons.inj whole
            have early : pending ∈ exchange.ledger.reports exchange.book.globals.nextOrderId :=
              Ledger.mem_reports.mpr ⟨inFront.subset List.mem_cons_self, isNum⟩
            rw [show exchange.ledger.reports exchange.book.globals.nextOrderId = [] from before] at early
            cases early
      · cases held
  | gone => exact .inr ⟨outOfBook_of_absent inv reported lives.2, (told nonneg).endsWith⟩

include listed free in
private theorem settles_of_nonneg (nonneg : 0 ≤ msg.qty) :
    exchange.Settles (exchange.handleNewOrderRequest env config header msg)
      exchange.book.globals.nextOrderId := by
  have inv := request_represents reachable admitted
  let accepted := exchange.acceptOrder env config header msg
  let permit := (Terms.newOnly msg.qty).permit env
  have isOrder := @acceptOrder_order β _ exchange env config header msg
  have accepts : Micro env permit (.none, exchange.ledger)
      (.pending (env.pool exchange.book.live), accepted.ledger) :=
    acceptOrder_micro header msg (byClient_of_free free) admitted rfl
  obtain ⟨reason, summaries, after, added, ⟨fine, path⟩ | ⟨rfl, freed, -⟩⟩ :=
    MatchState.addOrder_micros env permit config header.timeStamp
      (accepts.represents reachable.represents.1) (by rw [isOrder]; rfl) (by rw [isOrder]; rfl)
      (fun _ => trivial) (fun _ _ _ _ _ _ _ _ => trivial)
  · have handled := handleNewOrderRequest_ledger listed free added
    rw [if_neg (by rcases fine with rfl | rfl <;> decide)] at handled
    have whole : Micros env permit (.none, exchange.ledger)
        (.none, (exchange.handleNewOrderRequest env config header msg).ledger) := by
      rw [handled]
      exact .head accepts path
    refine settles_of_lived reachable inv ?_ nonneg whole
    obtain ⟨later, published, -⟩ := path.addsNoReject (fun _ _ forbidden => forbidden)
    refine ⟨Nat.ne_of_gt reachable.represents.1.indexed.numbered,
      exchange.pendingReport env config header msg, ?_, exchange.newOrder_id env config header msg⟩
    rw [handled, show after.ledger.responses = _ from published]
    refine List.mem_append_left _ ?_
    rw [show accepted.matching.ledger.responses = _ from
      congrArg Ledger.responses (acceptOrder_ledger header msg)]
    exact List.mem_append_right _ (List.mem_singleton_self _)
  · exact settles_of_refused reachable admitted listed free added freed

omit admitted in
/-- What an order could fill does not depend on its being accepted. -/
private theorem cannotFill_accepted :
    MatchingEngine.CannotFill (exchange.acceptOrder env config header msg).book config.smpMode
        (exchange.newOrder env config header msg) msg.price msg.qty ↔
      MatchingEngine.CannotFill exchange.book config.smpMode (exchange.newOrder env config header msg)
        msg.price msg.qty := by
  have inv := reachable.represents.1
  unfold MatchingEngine.CannotFill
  rw [OrderBook.canFillCompletely_congr]
  · show ((exchange.onBook fun _ => (exchange.book.allocateOrder env).2).clientIdFor
      msg.userId).2.matching.book.l3 = exchange.book.l3
    rw [clientIdFor_matching]
    rfl
  · intro id
    rw [acceptOrder_resolve inv]

/-- A new-order request ends with the order in the book or with one terminal report,
unless it becomes an order for less than nothing that is not killed. -/
theorem settles_iff :
    exchange.Settles (exchange.handleNewOrderRequest env config header msg)
        exchange.book.globals.nextOrderId ↔
      header.symbol ≠ config.symbol ∨ exchange.ClientIdTaken msg.clientOrderId ∨ 0 ≤ msg.qty ∨
        MatchingEngine.CannotFill exchange.book config.smpMode
          (exchange.newOrder env config header msg) msg.price msg.qty := by
  by_cases wrong : header.symbol ≠ config.symbol ∨ exchange.ClientIdTaken msg.clientOrderId
  · refine iff_of_true (settles_of_rejected reachable admitted wrong) ?_
    rcases wrong with unlisted | taken
    · exact .inl unlisted
    · exact .inr (.inl taken)
  have listed : header.symbol = config.symbol := by
    by_contra unlisted
    exact wrong (.inl unlisted)
  have free : ¬ exchange.ClientIdTaken msg.clientOrderId := fun taken => wrong (.inr taken)
  by_cases nonneg : 0 ≤ msg.qty
  · exact iff_of_true (settles_of_nonneg reachable admitted listed free nonneg) (.inr (.inr (.inl nonneg)))
  · rw [settles_of_negative reachable admitted listed free (Int.not_le.mp nonneg),
      cannotFill_accepted reachable]
    simp [listed, free, nonneg]

end Request

/-- A limit order that rests until it is cancelled. -/
private def sizedMessage (qty : Int) : AddOrderMessage :=
  { userId := default, clientOrderId := default, side := .buy, type := .limit
    timeInForce := .goodTillCancel, price := 100, qty }

private def usersMessage (user clientOrderId : UInt8) (side : Side) (price qty : Int) : AddOrderMessage :=
  { userId := Name.copyWireField [user], clientOrderId := Name.copyWireField [clientOrderId], side, type := .limit
    timeInForce := .goodTillCancel, price, qty }

/-- A bid takes another user's offer, has the user's own cancelled, and rests with what is left. -/
theorem settles_ownOffer :
    let env := Environment.counted fun _ => default
    let config := SymbolConfig.reference .cancelResting
    let exchange := (Exchange.new (fun _ => default) true : Exchange ReferenceBook).run env config
      [.newOrder Input.header (usersMessage 66 1 .sell 99 2), .newOrder Input.header (usersMessage 65 2 .sell 100 4)]
    let after := exchange.handleNewOrderRequest env config Input.header (usersMessage 65 3 .buy 100 5)
    (after.matching.responses.drop exchange.matching.responses.length).map (fun report => (report.orderNum, report.orderStatus)) =
        [(3, .pendingNew), (3, .new), (3, .partiallyFilled), (1, .filled), (2, .canceled)] ∧
      exchange.Settles after 3 := by
  intro env config exchange after
  have start : Reachable env config (fun _ _ => True) (Exchange.new (fun _ => default) true : Exchange ReferenceBook) :=
    .new _ _
  have reachable : Reachable env config (fun _ _ => True) exchange := start.run (by decide +kernel)
  have admitted : exchange.Admits env (.newOrder Input.header (usersMessage 65 3 .buy 100 5)) := by decide +kernel
  have drawn : exchange.book.globals.nextOrderId = 3 := by decide +kernel
  have told : (after.matching.responses.drop exchange.matching.responses.length).map
      (fun report => (report.orderNum, report.orderStatus)) =
        [(3, .pendingNew), (3, .new), (3, .partiallyFilled), (1, .filled), (2, .canceled)] := by decide +kernel
  refine ⟨told, ?_⟩
  clear told start
  clear_value exchange
  rw [← drawn]
  exact (settles_iff reachable admitted).mpr (.inr (.inr (.inl (by decide))))

/-- An order for less than nothing is acknowledged and never heard of again. -/
theorem not_settles_negativeOrder :
    let exchange := (Exchange.new (fun _ => default) true : Exchange ReferenceBook)
    let after := exchange.handleNewOrderRequest (.counted fun _ => default) (.reference .none)
      Input.header (sizedMessage (-5))
    (exchange.answersTo after 1).map OrderResponse.orderStatus = [.pendingNew, .new] ∧
      ¬ exchange.Settles after 1 := by
  intro exchange after
  have answers : (exchange.answersTo after 1).map OrderResponse.orderStatus = [.pendingNew, .new] := by
    decide +kernel
  have outside : after.book.orders.lookup 1 = none := by decide +kernel
  have interim : ∀ response ∈ exchange.answersTo after 1, response.isTerminal = false := by decide +kernel
  refine ⟨answers, ?_⟩
  rintro (⟨⟨ref, registered, -⟩, -⟩ | ⟨-, earlier, last, whole, terminal, -⟩)
  · rw [outside] at registered
    cases registered
  · rw [interim last (by rw [whole]; simp)] at terminal
    cases terminal

end Exchange

end SlickSim
