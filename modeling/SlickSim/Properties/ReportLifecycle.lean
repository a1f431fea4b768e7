import SlickSim.OrderBook.Reference
import SlickSim.Ledger.Reachable

/-!
# The reports on one order

Read in publication order, the reports that carry one order number are a word of a
small language: pending, acknowledged, any mix of partial fills and pending or done
replacements, and at most one terminal report, which is there exactly when the order
is not.
-/

set_option autoImplicit false

namespace SlickSim

inductive ReportKind where
  | pendingNew
  | new
  | partialFill
  | fill
  | pendingReplace
  | replaced
  | pendingCancel
  | canceled
  | other
deriving DecidableEq, Repr

namespace ReportKind

def isInterim : ReportKind → Bool
  | partialFill | pendingReplace | replaced | pendingCancel => true
  | _ => false

def isTerminal : ReportKind → Bool
  | fill | canceled => true
  | _ => false

/-- Acknowledged and not ended. -/
def Open (kinds : List ReportKind) : Prop :=
  ∃ mix, kinds = .pendingNew :: .new :: mix ∧ ∀ kind ∈ mix, kind.isInterim = true

/-- Acknowledged, then ended by one terminal report. -/
def Ended (kinds : List ReportKind) : Prop :=
  ∃ mix last, kinds = .pendingNew :: .new :: (mix ++ [last]) ∧ (∀ kind ∈ mix, kind.isInterim = true) ∧
    last.isTerminal = true

theorem Open.interim {kinds : List ReportKind} {kind : ReportKind} (isOpen : Open kinds)
    (interim : kind.isInterim = true) : Open (kinds ++ [kind]) := by
  obtain ⟨mix, rfl, mixed⟩ := isOpen
  refine ⟨mix ++ [kind], rfl, ?_⟩
  intro each member
  rcases List.mem_append.mp member with earlier | last
  · exact mixed each earlier
  · rw [List.mem_singleton.mp last]
    exact interim

theorem Open.terminal {kinds : List ReportKind} {kind : ReportKind} (isOpen : Open kinds)
    (terminal : kind.isTerminal = true) : Ended (kinds ++ [kind]) := by
  obtain ⟨mix, rfl, mixed⟩ := isOpen
  exact ⟨mix, kind, rfl, mixed, terminal⟩

theorem Open.noTerminal {kinds : List ReportKind} (isOpen : Open kinds) :
    ∀ kind ∈ kinds, kind.isTerminal = false := by
  obtain ⟨mix, rfl, mixed⟩ := isOpen
  intro kind member
  rcases List.mem_cons.mp member with rfl | member
  · rfl
  · rcases List.mem_cons.mp member with rfl | member
    · rfl
    · have interim := mixed kind member
      cases kind <;> first | rfl | cases interim

end ReportKind

open ReportKind (Open Ended)

def OrderResponse.kind (response : OrderResponse) : ReportKind :=
  match response.execType, response.orderStatus with
  | .new, .pendingNew => .pendingNew
  | .new, .new => .new
  | .trade, .partiallyFilled => .partialFill
  | .trade, .filled => .fill
  | .pendingReplace, .pendingReplace => .pendingReplace
  | .replaced, .replaced => .replaced
  | .pendingCancel, .pendingCancel => .pendingCancel
  | .canceled, .canceled => .canceled
  | _, _ => .other

section Kinds

variable (slot : OrderResponse) (order : Order)

@[simp] theorem OrderResponse.writeNewPending_kind (requestTime : Nat) :
    (slot.writeNewPending order requestTime).kind = .pendingNew := rfl
@[simp] theorem OrderResponse.writeAck_kind (requestTime : Nat) :
    (slot.writeAck order requestTime).kind = .new := rfl
@[simp] theorem OrderResponse.writeModify_kind (newPrice newQty : Int) (requestTime : Nat) :
    (slot.writeModify order newPrice newQty requestTime).kind = .replaced := rfl
@[simp] theorem OrderResponse.writeCancel_kind (requestTime : Nat) :
    (slot.writeCancel order requestTime).kind = .canceled := rfl
@[simp] theorem OrderResponse.writeReplacePending_kind (requestTime : Nat) :
    (slot.writeReplacePending order requestTime).kind = .pendingReplace := rfl
@[simp] theorem OrderResponse.writeCancelPending_kind (requestTime : Nat) :
    (slot.writeCancelPending order requestTime).kind = .pendingCancel := rfl

theorem OrderResponse.writeExecution_kind (aggressor : Bool) :
    (slot.writeExecution order aggressor).kind =
      if order.leavesQuantity = 0 then .fill else .partialFill := by
  unfold OrderResponse.kind OrderResponse.writeExecution
  by_cases done : order.leavesQuantity = 0
  · simp [done]
  · simp [done]

end Kinds

/-- New orders have a positive quantity and amendments name a price. Orders are only
turned away under `CANCEL_NEWEST`. -/
def Terms.wellPosed (config : SymbolConfig) : Terms where
  accept := fun _ _ order => 0 < order.quantity
  reject := fun _ _ => True
  refuse := config.smpMode = .cancelNewest
  startAmend := fun _ => True
  abortAmend := fun _ => True
  replace := fun _ _ newPrice _ => newPrice ≠ nullPrice
  amendRests := fun _ _ => True
  cancel := fun _ => True

/-- What the kinds of the reports say of a life. -/
def Life.Reports (config : SymbolConfig) : Life → List ReportKind → Prop
  | .unborn, kinds => kinds = []
  | .alive .pending order, kinds => kinds = [.pendingNew] ∧ 0 < order.leavesQuantity ∧
      order.cumQuantity = 0
  | .alive .working order, kinds => 0 ≤ order.cumQuantity ∧ 0 < order.leavesQuantity + order.cumQuantity ∧
      (0 < order.leavesQuantity ∧ Open kinds ∨ order.leavesQuantity = 0 ∧ Ended kinds)
  | .alive .done _, kinds => Ended kinds
  | .alive .resting order, kinds => 0 < order.leavesQuantity ∧ Open kinds
  | .alive .amending order, kinds => 0 < order.leavesQuantity ∧ Open kinds
  | .alive .cancelling order, kinds => 0 < order.leavesQuantity ∧ Open kinds
  | .alive .amended order, kinds => order.price ≠ nullPrice ∧
      (0 < order.leavesQuantity ∧ Open kinds ∨ order.leavesQuantity = 0 ∧ Ended kinds)
  | .alive .emptied order, kinds => order.leavesQuantity = 0 ∧ Open kinds
  | .alive .closing order, kinds => order.leavesQuantity = 0 ∧ Ended kinds
  | .turnedAway, kinds => kinds = [.pendingNew] ∧ config.smpMode = .cancelNewest
  | .gone, kinds => Ended kinds

/-- A fill ends the reports exactly when it leaves nothing. -/
theorem reports_fill {kinds : List ReportKind} {slot : OrderResponse} {order : Order}
    {price qty : Int} {timestamp : Nat} {aggressor : Bool} (isOpen : Open kinds)
    (within : qty ≤ order.leavesQuantity) :
    let filled := order.execute price qty timestamp
    let next := kinds ++ [(slot.writeExecution filled aggressor).kind]
    0 < filled.leavesQuantity ∧ Open next ∨ filled.leavesQuantity = 0 ∧ Ended next := by
  dsimp only
  rw [OrderResponse.writeExecution_kind]
  split <;> rename_i done
  · exact .inr ⟨done, isOpen.terminal rfl⟩
  · refine .inl ⟨?_, isOpen.interim rfl⟩
    rw [Order.execute_leaves] at done ⊢
    omega

theorem LifeStep.reports {config : SymbolConfig} {before after : Life × List OrderResponse}
    (step : LifeStep (.wellPosed config) before after)
    (told : before.1.Reports config (before.2.map OrderResponse.kind)) :
    after.1.Reports config (after.2.map OrderResponse.kind) := by
  cases step with
  | accept named whole unfilled unpriced permitted =>
      refine ⟨rfl, ?_, unfilled⟩
      rw [whole]
      exact permitted
  | @touch stage order reports status lastUpdateTime requestTag =>
      cases stage <;> exact told
  | ack =>
      obtain ⟨kinds, left, unfilled⟩ := told
      refine ⟨by omega, by omega, .inl ⟨left, [], ?_, by simp⟩⟩
      rw [List.map_append, kinds]
      rfl
  | refuse permitted => exact ⟨told.1, permitted⟩
  | @aggress stage order reports slot price qty timestamp matching positive within =>
      rcases matching with rfl | rfl
      · obtain ⟨nonneg, some, ⟨left, isOpen⟩ | ⟨nothing, -⟩⟩ := told
        · rw [List.map_append]
          refine ⟨?_, ?_, reports_fill isOpen within⟩
          · rw [Order.execute_cum]
            omega
          · rw [Order.execute_cum, Order.execute_leaves]
            omega
        · omega
      · obtain ⟨priced, ⟨left, isOpen⟩ | ⟨nothing, -⟩⟩ := told
        · rw [List.map_append]
          exact ⟨priced, reports_fill isOpen within⟩
        · omega
  | fillPartly positive within =>
      obtain ⟨left, isOpen⟩ := told
      rw [List.map_append]
      rcases reports_fill isOpen (Int.le_of_lt within) with more | ⟨nothing, -⟩
      · exact more
      · rw [Order.execute_leaves] at nothing
        omega
  | fillFully =>
      obtain ⟨left, isOpen⟩ := told
      rw [List.map_append]
      rcases reports_fill isOpen (Int.le_refl _) with ⟨more, -⟩ | ⟨-, ended⟩
      · rw [Order.execute_leaves] at more
        omega
      · exact ended
  | cancelResting rests =>
      rw [List.map_append]
      rcases rests with rfl | rfl
      · exact told.2.terminal rfl
      · exact told.2.terminal rfl
  | cancelHand unrestable unfinished =>
      obtain ⟨nonneg, some, ⟨left, isOpen⟩ | ⟨nothing, -⟩⟩ := told
      · rw [List.map_append]
        exact isOpen.terminal rfl
      · omega
  | dropDone => exact told
  | dropFilled filled traded =>
      obtain ⟨-, -, ⟨left, -⟩ | ⟨-, ended⟩⟩ := told
      · omega
      · exact ended
  | rest left =>
      obtain ⟨-, -, ⟨-, isOpen⟩ | ⟨nothing, -⟩⟩ := told
      · exact ⟨left, isOpen⟩
      · omega
  | startAmend permitted =>
      rw [List.map_append]
      exact ⟨told.1, told.2.interim rfl⟩
  | abortAmend permitted => exact told
  | @replace order reports slot requestTime newPrice newQty permitted =>
      obtain ⟨left, isOpen⟩ := told
      rw [List.map_append]
      have next : Open (List.map OrderResponse.kind reports ++ [.replaced]) := isOpen.interim rfl
      by_cases filled : newQty ≤ order.cumQuantity
      · rw [decide_eq_true filled]
        exact ⟨if_pos filled, next⟩
      · rw [decide_eq_false filled]
        refine ⟨permitted, .inl ⟨?_, next⟩⟩
        show 0 < if order.cumQuantity ≥ newQty then 0 else newQty - order.cumQuantity
        rw [if_neg filled]
        omega
  | cancelAmended unrestable =>
      rcases unrestable with rfl | ⟨rfl, left, unpriced⟩
      · rw [List.map_append]
        exact ⟨told.1, told.2.terminal rfl⟩
      · exact absurd unpriced told.1
  | amendRests held left permitted =>
      rcases held with rfl | rfl
      · obtain ⟨-, ⟨-, isOpen⟩ | ⟨nothing, -⟩⟩ := told
        · exact ⟨left, isOpen⟩
        · omega
      · have nothing := told.1
        omega
  | amendGone held filled =>
      rcases held with rfl | rfl
      · obtain ⟨-, ⟨left, -⟩ | ⟨-, ended⟩⟩ := told
        · omega
        · exact ended
      · exact told.2
  | startCancel permitted =>
      rw [List.map_append]
      exact ⟨told.1, told.2.interim rfl⟩

theorem Life.reports_of_run {config : SymbolConfig} {life : Life} {reports : List OrderResponse}
    (run : Relation.ReflTransGen (LifeStep (.wellPosed config)) (.unborn, []) (life, reports)) :
    life.Reports config (reports.map OrderResponse.kind) := by
  have general : ∀ state, Relation.ReflTransGen (LifeStep (.wellPosed config)) (.unborn, []) state →
      state.1.Reports config (state.2.map OrderResponse.kind) := by
    intro state run
    induction run with
    | refl => rfl
    | tail _ step ih => exact step.reports ih
  exact general _ run

namespace Exchange

variable {β : Type} [OrderBookL3 β] {env : Environment} {config : SymbolConfig}
  {exchange : Exchange β}

/-- The reports that carry an order number, oldest first. -/
def reportsOn (exchange : Exchange β) (id : Nat) : List OrderResponse :=
  exchange.matching.responses.filter fun response => decide (response.orderNum = id)

/-- The order rests in the L3 book as the maps know it. -/
def InBook (exchange : Exchange β) (id : Nat) : Prop :=
  ∃ ref, exchange.book.orders.lookup id = some ref ∧
    OrderBookL3.findOrder exchange.book.l3 id = some (exchange.book.heap ref).bookEntry ∧
    (exchange.book.heap ref).id = id ∧ 0 < (exchange.book.heap ref).leavesQuantity

/-- The order is neither in the L3 book nor in a map. -/
def OutOfBook (exchange : Exchange β) (id : Nat) : Prop :=
  OrderBookL3.findOrder exchange.book.l3 id = none ∧ exchange.book.orders.lookup id = none ∧
    ∀ name ref, exchange.book.ordersByClientOrderId.lookup name = some ref ∨
      exchange.book.ordersByOrderId.lookup name = some ref → (exchange.book.heap ref).id ≠ id

/-- New orders are for a positive quantity and amendments name a price. -/
def WellPosed (_ : Exchange β) : Input → Prop
  | .newOrder _ msg => 0 < msg.qty
  | .amend _ msg => msg.newPrice ≠ nullPrice
  | _ => True

instance (exchange : Exchange β) (input : Input) : Decidable (exchange.WellPosed input) :=
  match input with
  | .newOrder _ msg => inferInstanceAs (Decidable (0 < msg.qty))
  | .amend _ msg => inferInstanceAs (Decidable (msg.newPrice ≠ nullPrice))
  | .cancel .. | .level2Snapshot .. | .coinbaseEvent .. | .l2Snapshot .. | .l2Diff .. | .trades ..
  | .marketOrder .. | .marketTrade .. | .flushMarketEvents | .subscribe .. | .subscribeServed | .elsewhere .. => isTrue trivial

theorem inBook_of_registered {ref : Nat} (inv : exchange.ledger.Represents .none)
    (inside : exchange.ledger.Registered ref) : exchange.InBook (exchange.book.heap ref).id := by
  obtain ⟨rests, left, -⟩ := (inv.agrees.at_ ref).rests inside (by rintro ⟨⟩)
  exact ⟨ref, inside, rests, rfl, left⟩

theorem outOfBook_of_absent {id : Nat} (inv : exchange.ledger.Represents .none)
    (owned : exchange.ledger.Owned id) (absent : exchange.ledger.Absent .none id) :
    exchange.OutOfBook id := by
  refine ⟨?_, absent.1, ?_⟩
  · cases found : exchange.ledger.entry id with
    | none => exact found
    | some resting =>
        obtain ⟨ref, ours⟩ := inv.indexed.entry_owned found owned
        rw [absent.1] at ours
        cases ours
  · intro name ref named sameId
    have inside : exchange.ledger.Registered ref := by
      rcases named with named | named
      · exact (inv.indexed.byClient_iff.mp
          (show exchange.ledger.byClient name = some ref from named)).2.1
      · exact (inv.indexed.byOrder_iff.mp
          (show exchange.ledger.byOrder name = some ref from named)).2.1
    have nothing := absent.1
    rw [← sameId] at nothing
    rw [show exchange.ledger.owner (exchange.book.heap ref).id = some ref from inside] at nothing
    cases nothing

private theorem wellPosed_licence (exchange : Exchange β) (input : Input)
    (posed : exchange.WellPosed input) :
    exchange.RequestLicence ((Terms.wellPosed config).permit env) env config input := by
  refine requestLicence_of_terms (fun _ _ => trivial) (fun _ => trivial) (fun _ _ => trivial)
    (fun newest => newest) ?_ ?_ (fun _ _ _ _ _ _ => trivial)
  · rintro header msg rfl
    exact posed
  · rintro header msg ref rfl - -
    exact ⟨trivial, fun _ _ => posed⟩

/-- An order some report names is open and in the book, or ended and out of it, or was
turned away by `CANCEL_NEWEST`. -/
theorem reports_of_reachable (reachable : Reachable env config WellPosed exchange) {id : Nat}
    (reported : exchange.Reported id) :
    let kinds := (exchange.reportsOn id).map OrderResponse.kind
    Open kinds ∧ exchange.InBook id ∨ Ended kinds ∧ exchange.OutOfBook id ∨
      kinds = [.pendingNew] ∧ exchange.OutOfBook id ∧ config.smpMode = .cancelNewest ∧
        Ledger.ReportsTurnedAway exchange.matching.responses id := by
  have inv := reachable.represents.1
  obtain ⟨life, lives, past⟩ := reachable.lived (.wellPosed config)
    (fun exchange input _ _ posed => wellPosed_licence exchange input posed) reported.1
  have told := Life.reports_of_run past
  have owned : exchange.ledger.Owned id := reported
  cases life with
  | unborn => exact absurd lives (Ledger.owned_iff_reports.mp owned).2
  | alive stage order =>
      obtain ⟨ref, rfl, rfl, held | ⟨rfl, inside, -⟩, -⟩ := lives
      · cases held
      · exact .inl ⟨told.2, inBook_of_registered inv inside⟩
  | turnedAway =>
      obtain ⟨-, absent, rejected | ⟨ref, held, -⟩⟩ := lives
      · exact .inr (.inr ⟨told.1, outOfBook_of_absent inv owned absent, told.2, rejected⟩)
      · cases held
  | gone => exact .inr (.inl ⟨told, outOfBook_of_absent inv owned lives.2⟩)

/-- A bid is partly filled, amended and filled by a second offer. -/
theorem reports_filledBid :
    let exchange := (Exchange.new (fun _ => default) true : Exchange ReferenceBook).run
      (.counted fun _ => default) (.reference .cancelNewest)
      [.limit 1 .buy 100 10, .limit 2 .sell 100 4, .reprice 1 100 8, .limit 3 .sell 99 4]
    let kinds := (exchange.reportsOn 1).map OrderResponse.kind
    exchange.Reported 1 ∧ (Open kinds ∧ exchange.InBook 1 ∨ Ended kinds ∧ exchange.OutOfBook 1 ∨
      kinds = [.pendingNew] ∧ exchange.OutOfBook 1 ∧ SelfMatchPreventionMode.cancelNewest = .cancelNewest ∧
        Ledger.ReportsTurnedAway exchange.matching.responses 1) := by
  have start : Reachable (.counted fun _ => default) (.reference .cancelNewest) WellPosed
      (Exchange.new (fun _ => default) true : Exchange ReferenceBook) := .new _ _
  intro exchange kinds
  have reported : exchange.Reported 1 := by decide +kernel
  exact ⟨reported, reports_of_reachable (start.run (by decide +kernel)) reported⟩

end Exchange

end SlickSim
