import SlickSim.Ledger.Reachable

/-!
# Which order a report is on

Reports name their order twice: by the number the simulator gave it, and by the uuid its
client is told. As long as no uuid is drawn twice the two names go together, and a report
under no number is a reject.
-/

set_option autoImplicit false

namespace SlickSim

open Ledger

inductive Adds (permit : Permit) (before : Hand × Ledger) : List OrderResponse → Prop
  | nothing : Adds permit before []
  | reject {report : OrderResponse} (unnumbered : report.orderNum = 0)
      (rejected : report.execType = .rejected ∧ report.orderStatus = .rejected) (unfilled : report.cumQty = 0) :
      Adds permit before [report]
  | first {report : OrderResponse} {order : Order} (permitted : permit.accept before.2 order)
      (next : order.id = before.2.globals.nextOrderId) (number : report.orderNum = order.id)
      (name : report.orderId = order.orderId) : Adds permit before [report]
  | later {report : OrderResponse} {ref : Nat} {stage : Stage} (alive : before.2.AtStage before.1 ref stage)
      (number : report.orderNum = (before.2.heap ref).id)
      (name : report.orderId = (before.2.heap ref).orderId) : Adds permit before [report]

def Extends (permit : Permit) (before after : Hand × Ledger) : Prop :=
  ∃ told, after.2.responses = before.2.responses ++ told ∧ Adds permit before told

section Extends

variable {permit : Permit} {env : Environment} {before after : Hand × Ledger} {hand hand' : Hand}
  {ledger next : Ledger}

theorem Extends.silent (same : after.2.responses = before.2.responses) : Extends permit before after :=
  ⟨[], by rw [same, List.append_nil], .nothing⟩

theorem Extends.of_later {report : OrderResponse} {ref : Nat} {stage : Stage}
    (published : after.2.responses = before.2.responses ++ [report])
    (alive : before.2.AtStage before.1 ref stage) (number : report.orderNum = (before.2.heap ref).id)
    (name : report.orderId = (before.2.heap ref).orderId) : Extends permit before after :=
  ⟨[report], published, .later alive number name⟩

private theorem setEntry_silent (ledger : Ledger) (id : Nat) (next : Option BookOrder) (timestamp : Nat) :
    (ledger.setEntry id next timestamp).responses = ledger.responses := by
  have folded : ∀ (updates : List OrderUpdate) (start : Ledger),
      (updates.foldl onOrderUpdate start).responses = start.responses := by
    intro updates
    induction updates with
    | nil => exact fun _ => rfl
    | cons update rest ih =>
        intro start
        refine (ih _).trans ?_
        unfold onOrderUpdate
        split
        · rfl
        · split <;> rfl
  exact folded _ _

theorem Sweep.adds {side : BookSide} (swept : Sweep env hand side ledger next)
    (inv : ledger.Represents hand) : Extends permit (hand, ledger) (hand, next) := by
  cases swept with
  | tick later => exact .silent rfl
  | hitPhantom rests swept phantom positive within => exact .silent (setEntry_silent ..)
  | @hitPartly resting ref qty timestamp rests swept ours apart positive within =>
      have inside := (resting_is inv rests ours apart).1
      have self := @updateOrder_heap_self ledger ref fun order => order.execute order.price qty timestamp
      refine .of_later rfl (.inr ⟨rfl, inside, apart⟩) ?_ ?_
      · exact (congrArg Order.id self).trans rfl
      · exact (congrArg Order.orderId self).trans rfl
  | @hitFully resting ref timestamp rests swept ours apart =>
      have inside := (resting_is inv rests ours apart).1
      have self := @updateOrder_heap_self ledger ref fun order =>
        order.execute order.price resting.quantity timestamp
      refine .of_later rfl (.inr ⟨rfl, inside, apart⟩) ?_ ?_
      · exact (congrArg Order.id self).trans rfl
      · exact (congrArg Order.orderId self).trans rfl
  | @cancelOwn ref timestamp requestTime resting rests swept ours apart =>
      have inside := (resting_is inv rests ours apart).1
      have self := @updateOrder_heap_self ledger ref Order.withoutLeaves
      refine .of_later rfl (.inr ⟨rfl, inside, apart⟩) ?_ ?_
      · exact (congrArg Order.id self).trans rfl
      · exact (congrArg Order.orderId self).trans rfl
  | @aggress ref timestamp price qty held positive within =>
      obtain ⟨stage, isHeld⟩ : ∃ stage, hand.held = some (stage, ref) := by
        cases hand <;> cases held <;> exact ⟨_, rfl⟩
      exact .of_later rfl (.inl isHeld) rfl rfl

/-- Every effect adds at most one report, and says whose it is. -/
theorem Micro.adds (step : Micro env permit before after) (inv : before.2.Represents before.1) :
    Extends permit before after := by
  cases step with
  | sweep swept => exact swept.adds inv
  | reject permitted => exact ⟨[_], rfl, .reject rfl ⟨rfl, rfl⟩ rfl⟩
  | touch => exact .silent rfl
  | accept unused numbered later drawn clientFree named orderFree whole unfilled unpriced permitted =>
      exact ⟨[_], rfl, .first permitted numbered rfl rfl⟩
  | ack => exact .of_later rfl (.inl rfl) rfl rfl
  | refuse permitted => exact .silent rfl
  | rejectRefused permitted => exact ⟨[_], rfl, .reject rfl ⟨rfl, rfl⟩ rfl⟩
  | cancelHand unrestable unfinished => exact .of_later rfl (.inl rfl) rfl rfl
  | dropDone => exact .silent rfl
  | dropFilled filled traded => exact .silent rfl
  | rest later drawn left restable clear isRanked permitted =>
      subst isRanked
      exact .silent rfl
  | @startAmend ledger ref requestTime now requestTag registered permitted marked isMarked =>
      subst isMarked
      have self := @updateOrder_heap_self ledger ref (Order.touch .pendingReplace now requestTag)
      exact .of_later rfl (.inr ⟨rfl, registered, by rintro ⟨⟩⟩) ((congrArg Order.id self).trans rfl)
        ((congrArg Order.orderId self).trans rfl)
  | abortAmend permitted => exact .silent rfl
  | @replace ledger ref requestTime newPrice newQty permitted replaced isReplaced =>
      subst isReplaced
      have self := @updateOrder_heap_self ledger ref (Order.replace newPrice newQty)
      exact .of_later rfl (.inl rfl) ((congrArg Order.id self).trans rfl)
        ((congrArg Order.orderId self).trans rfl)
  | @cancelAmended ledger hand ref requestTime unrestable =>
      obtain ⟨stage, held⟩ : ∃ stage, hand.held = some (stage, ref) := by
        rcases unrestable with rfl | ⟨rfl, -⟩ <;> exact ⟨_, rfl⟩
      exact .of_later rfl (.inl held) rfl rfl
  | amendRests held later left clear isRanked place permitted =>
      subst isRanked
      exact .silent rfl
  | amendGone held later filled mine isRanked =>
      subst isRanked
      exact .silent rfl
  | @startCancel ledger ref requestTime requestTag registered permitted marked isMarked =>
      subst isMarked
      have self := @updateOrder_heap_self ledger ref
        (Order.touch .pendingCancel (ledger.heap ref).lastUpdateTime requestTag)
      exact .of_later rfl (.inr ⟨rfl, registered, by rintro ⟨⟩⟩) ((congrArg Order.id self).trans rfl)
        ((congrArg Order.orderId self).trans rfl)
  | @finishCancel ledger ref timestamp requestTime =>
      have self := @updateOrder_heap_self ledger ref Order.withoutLeaves
      exact .of_later rfl (.inl rfl) ((congrArg Order.id self).trans rfl)
        ((congrArg Order.orderId self).trans rfl)
  | addPhantom absent foreign numbered positive clear permitted => exact .silent (setEntry_silent ..)
  | resizePhantom rests phantom positive within ranked => exact .silent (setEntry_silent ..)
  | movePhantom rests phantom positive sameId sameSide permitted => exact .silent (setEntry_silent ..)
  | dropPhantom rests phantom => exact .silent (setEntry_silent ..)
  | clearMD retold => exact .silent rfl

end Extends

/-! ## One name for one number -/

/-- The reports of a life carry one order id. -/
def Life.Named : Life → List OrderResponse → Prop
  | .alive _ order, reports => ∀ report ∈ reports, report.orderId = order.orderId
  | _, reports => ∃ name, ∀ report ∈ reports, report.orderId = name

theorem LifeStep.named {terms : Terms} {before after : Life × List OrderResponse}
    (step : LifeStep terms before after) (named : before.1.Named before.2) : after.1.Named after.2 := by
  have appended : ∀ {reports : List OrderResponse} {report : OrderResponse} {name : Name},
      (∀ report ∈ reports, report.orderId = name) → report.orderId = name →
        ∀ other ∈ reports ++ [report], other.orderId = name := by
    intro reports report name all last other member
    rcases List.mem_append.mp member with earlier | isLast
    · exact all other earlier
    · rw [List.mem_singleton.mp isLast]
      exact last
  cases step with
  | accept named whole unfilled unpriced permitted => exact List.forall_mem_singleton.mpr rfl
  | touch => exact named
  | ack => exact appended named rfl
  | refuse permitted => exact ⟨_, named⟩
  | aggress matching positive within => exact appended named rfl
  | fillPartly positive within => exact appended named rfl
  | fillFully => exact ⟨_, appended named rfl⟩
  | cancelResting rests => exact ⟨_, appended named rfl⟩
  | cancelHand unrestable unfinished => exact appended named rfl
  | dropDone => exact ⟨_, named⟩
  | dropFilled filled traded => exact ⟨_, named⟩
  | rest left => exact named
  | startAmend permitted => exact appended named rfl
  | abortAmend permitted => exact named
  | replace permitted => exact appended named rfl
  | cancelAmended unrestable => exact appended named rfl
  | amendRests held left permitted => exact named
  | amendGone held filled => exact ⟨_, named⟩
  | startCancel permitted => exact appended named rfl

theorem Life.named_of_run {terms : Terms} {life : Life} {reports : List OrderResponse}
    (run : Relation.ReflTransGen (LifeStep terms) (.unborn, []) (life, reports)) : life.Named reports := by
  have general : ∀ state, Relation.ReflTransGen (LifeStep terms) (.unborn, []) state →
      state.1.Named state.2 := by
    intro state run
    induction run with
    | refl => exact ⟨default, by rintro _ ⟨⟩⟩
    | tail _ step ih => exact step.named ih
  exact general _ run

/-- A life bears a name with a property, as long as it goes on. -/
def Life.Bears (holds : Name → Prop) : Life → Prop
  | .alive _ order => holds order.orderId
  | _ => True

/-- An order keeps the order id it is accepted under. -/
theorem LifeStep.bears {terms : Terms} {holds : Name → Prop}
    (accepts : ∀ past slot order, terms.accept past slot order → holds order.orderId)
    {before after : Life × List OrderResponse} (step : LifeStep terms before after)
    (bears : before.1.Bears holds) : after.1.Bears holds := by
  cases step with
  | accept named whole unfilled unpriced permitted => exact accepts _ _ _ permitted
  | refuse | fillFully | cancelResting | dropDone | dropFilled | amendGone => trivial
  | _ => exact bears

theorem Life.bears_of_run {terms : Terms} {holds : Name → Prop}
    (accepts : ∀ past slot order, terms.accept past slot order → holds order.orderId)
    {state : Life × List OrderResponse} (run : Relation.ReflTransGen (LifeStep terms) (.unborn, []) state) :
    state.1.Bears holds := by
  induction run with
  | refl => trivial
  | tail _ step ih => exact step.bears accepts ih

/-- No order is accepted under an order id that was reported before. -/
def Terms.NamesAnew (terms : Terms) : Prop :=
  ∀ past slot order, terms.accept past slot order → ∀ report ∈ past, report.orderNum ≠ 0 →
    report.orderId ≠ order.orderId

namespace Ledger

/-- Numbers and order ids name the same orders, and what has no number is a reject. -/
structure Named (ledger : Ledger) : Prop where
  rejects : ∀ report ∈ ledger.responses, report.orderNum = 0 →
    (report.execType = .rejected ∧ report.orderStatus = .rejected) ∧ report.cumQty = 0
  names : ∀ report ∈ ledger.responses, ∀ other ∈ ledger.responses, report.orderNum ≠ 0 →
    other.orderNum ≠ 0 → (report.orderId = other.orderId ↔ report.orderNum = other.orderNum)

/-- Behind every order number is a life, from its birth. -/
def Storied (terms : Terms) (hand : Hand) (ledger : Ledger) : Prop :=
  ∀ id, id ≠ 0 → ∃ life, ledger.Lives hand id life ∧
    Relation.ReflTransGen (LifeStep terms) (.unborn, []) (life, ledger.reports id)

variable {terms : Terms} {env : Environment} {before after : Hand × Ledger}

theorem Storied.step (storied : before.2.Storied terms before.1)
    (step : Micro env (terms.permit env) before after) (inv : before.2.Represents before.1) :
    after.2.Storied terms after.1 := by
  intro id nonzero
  obtain ⟨life, lives, past⟩ := storied id nonzero
  obtain ⟨life', lives', path⟩ := step.livesOn inv nonzero lives
  exact ⟨life', lives', past.trans path⟩

theorem Named.append (named : before.2.Named) {report : OrderResponse}
    (published : after.2.responses = before.2.responses ++ [report])
    (rejects : report.orderNum = 0 →
      (report.execType = .rejected ∧ report.orderStatus = .rejected) ∧ report.cumQty = 0)
    (names : ∀ other ∈ before.2.responses, report.orderNum ≠ 0 → other.orderNum ≠ 0 →
      (report.orderId = other.orderId ↔ report.orderNum = other.orderNum)) : after.2.Named := by
  constructor
  · rw [published]
    intro other member zero
    rcases List.mem_append.mp member with earlier | isLast
    · exact named.rejects other earlier zero
    · rw [List.mem_singleton.mp isLast] at zero ⊢
      exact rejects zero
  · rw [published]
    intro left leftMember right rightMember leftNumber rightNumber
    rcases List.mem_append.mp leftMember with leftEarlier | leftLast <;>
      rcases List.mem_append.mp rightMember with rightEarlier | rightLast
    · exact named.names left leftEarlier right rightEarlier leftNumber rightNumber
    · rw [List.mem_singleton.mp rightLast] at rightNumber ⊢
      rw [eq_comm, names left leftEarlier rightNumber leftNumber, eq_comm]
    · rw [List.mem_singleton.mp leftLast] at leftNumber ⊢
      exact names right rightEarlier leftNumber rightNumber
    · rw [List.mem_singleton.mp leftLast, List.mem_singleton.mp rightLast]
      exact ⟨fun _ => rfl, fun _ => rfl⟩

theorem Named.step (named : before.2.Named) (storied : before.2.Storied terms before.1)
    (namesAnew : Terms.NamesAnew terms) (step : Micro env (terms.permit env) before after)
    (inv : before.2.Represents before.1) : after.2.Named := by
  obtain ⟨told, published, adds⟩ := step.adds inv
  cases adds with
  | nothing =>
      rw [List.append_nil] at published
      constructor
      · rw [published]
        exact named.rejects
      · rw [published]
        exact named.names
  | reject unnumbered rejected unfilled =>
      exact named.append published (fun _ => ⟨rejected, unfilled⟩) fun _ _ number => absurd unnumbered number
  | @first report order permitted next number name =>
      refine named.append published ?_ ?_
      · intro zero
        have := inv.indexed.numbered
        omega
      · intro other member _ otherNumber
        have differentName : other.orderId ≠ order.orderId := namesAnew _ _ _ permitted other member otherNumber
        have bound := inv.indexed.owned_bound ⟨otherNumber, other, member, rfl⟩
        constructor
        · intro same
          exact absurd (same.symm.trans name) differentName
        · intro same
          omega
  | @later report ref stage alive number name =>
      have inside : before.2.Owned (before.2.heap ref).id := by
        rcases alive with held | ⟨-, registered, -⟩
        · rcases Hand.held_cases held with fresh | resting
          · exact inv.indexed.fresh_owned fresh
          · exact inv.indexed.registered_owned (inv.indexed.resting_registered resting)
        · exact inv.indexed.registered_owned registered
      obtain ⟨life, lives, past⟩ := storied _ inside.1
      have isAlive : life = .alive stage (before.2.heap ref) := by
        rcases alive with held | ⟨rfl, registered, apart⟩
        · exact lives.of_held inv held
        · exact lives.of_registered inv registered apart
      subst isAlive
      have mine : ∀ other ∈ before.2.reports (before.2.heap ref).id, other.orderId = report.orderId := by
        rw [name]
        exact Life.named_of_run past
      obtain ⟨known, isKnown⟩ := List.exists_mem_of_ne_nil _ (owned_iff_reports.mp inside).2
      obtain ⟨knownTold, knownNumber⟩ := mem_reports.mp isKnown
      refine named.append published (fun zero => absurd (number.symm.trans zero) inside.1) ?_
      intro other member reportNumber otherNumber
      rw [← mine known isKnown, named.names known knownTold other member (knownNumber ▸ inside.1) otherNumber,
        knownNumber, number]

end Ledger

theorem Micros.named {terms : Terms} {env : Environment} {before after : Hand × Ledger}
    (run : Micros env (terms.permit env) before after) (inv : before.2.Represents before.1)
    (namesAnew : Terms.NamesAnew terms) (named : before.2.Named)
    (storied : before.2.Storied terms before.1) : after.2.Named ∧ after.2.Storied terms after.1 := by
  induction run with
  | refl => exact ⟨named, storied⟩
  | tail earlier step ih =>
      have represents := Micros.represents earlier inv
      exact ⟨ih.1.step ih.2 namesAnew step represents, ih.2.step step represents⟩

namespace Exchange

variable {β : Type} [OrderBookL3 β] {env : Environment} {config : SymbolConfig} {exchange : Exchange β}
  {allowed : Exchange β → Input → Prop}

/-- Where no order is accepted under a name that was reported before, numbers and names
go together, and behind every number is a life. -/
theorem Reachable.named (terms : Terms) (reachable : Reachable env config allowed exchange)
    (namesAnew : Terms.NamesAnew terms)
    (licensed : ∀ (exchange : Exchange β) (input : Input), exchange.ledger.Represents .none →
      exchange.Admits env input → allowed exchange input →
      exchange.RequestLicence (terms.permit env) env config input) :
    exchange.ledger.Named ∧ exchange.ledger.Storied terms .none := by
  refine (@invariant β _ env config (terms.permit env) exchange allowed
    (fun ledger => ledger.Named ∧ ledger.Storied terms .none) ?_ ?_ ?_ reachable).2.2
  · intro pool publishOrderUpdates
    rw [new_ledger]
    exact ⟨⟨by rintro _ ⟨⟩, by rintro _ ⟨⟩⟩, fun _ _ => ⟨.unborn, rfl, .refl⟩⟩
  · intro exchange input inv _ _ admitted permitted
    exact stepLicence_of_joins (fun _ _ => trivial) admitted (licensed exchange input inv admitted permitted)
  · rintro before after inv - ⟨named, storied⟩ run
    exact run.named inv namesAnew named storied

end Exchange

end SlickSim
