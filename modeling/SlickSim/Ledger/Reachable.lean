import SlickSim.Exchange.Run
import SlickSim.Ledger.Amendments
import SlickSim.Ledger.Lives
import SlickSim.Ledger.Venues

/-!
# Every input is a run of the ledger machine

A `StepLicence` says what one input needs of a permit. From it follow the step
lemma and, by induction over the inputs, what every reachable state keeps.
-/

set_option autoImplicit false

namespace SlickSim

def Ledger.initial (pool : Nat → Order) : Ledger :=
  { entry := fun _ => none, owner := fun _ => none, byClient := fun _ => none
    byOrder := fun _ => none, totals := fun _ => none, heap := pool, live := [], doubleFreed := false
    joins := [], declined := false, trail := [], globals := Globals.initial, responses := [] }

namespace Exchange

variable {β : Type} [OrderBookL3 β] {env : Environment} {config : SymbolConfig} {permit : Permit}
  {exchange : Exchange β} {input : Input} {allowed : Exchange β → Input → Prop}

/-- What one input needs of a permit. -/
def StepLicence (permit : Permit) (env : Environment) (config : SymbolConfig) (exchange : Exchange β) :
    Input → Prop
  | .newOrder header msg => NewOrderLicence permit env config exchange header msg
  | .amend header msg => ModifyLicence permit env config exchange header msg
  | .cancel header msg => CancelLicence permit config exchange header msg
  | .level2Snapshot _ updates => ∀ ledger : Ledger, ledger.Ranked → ∀ update ∈ updates,
      ledger.MayJoin permit (toBookSide update.side) update.price ledger.Draws
  | .coinbaseEvent event => exchange.ledger.MayJoin permit (toBookSide event.side) event.price
      exchange.ledger.Draws
  | .l2Snapshot snapshot => exchange.SnapshotJoins permit env config snapshot
  | .l2Diff diff => exchange.DiffJoins permit env config diff
  | .trades trades => exchange.TradesJoin permit env config trades
  | .marketOrder event => MarketOrderLicence permit exchange event
  | _ => True

theorem step_micros (inv : exchange.ledger.Represents .none) (totalled : exchange.ledger.Totalled)
    (admitted : exchange.Admits env input) (licence : exchange.StepLicence permit env config input) :
    Micros env permit (.none, exchange.ledger) (.none, (exchange.step env config input).ledger) := by
  cases input with
  | newOrder header msg => exact handleNewOrderRequest_micros inv admitted licence
  | amend header msg => exact handleModifyOrderRequest_micros inv licence
  | cancel header msg => exact handleCancelOrderRequest_micros inv licence
  | level2Snapshot seqNum updates => exact onLevel2Snapshot_micros env config seqNum updates inv licence
  | coinbaseEvent event => exact dispatchEvent_micros env config inv licence
  | l2Snapshot snapshot => exact processL2Snapshot_micros env config inv licence
  | l2Diff diff => exact processL2Diff_micros env config inv totalled licence
  | trades trades => exact processTradesEvent_micros env config trades inv licence
  | marketOrder event => exact (applyMarketOrder_run env config inv licence).micros
  | marketTrade event => exact (replayMarketTrade_run env config event inv).micros
  | flushMarketEvents =>
      show Micros env permit _ (.none, exchange.flushMarketEvents.ledger)
      unfold flushMarketEvents
      split
      · show Micros env permit _ (.none, exchange.flushMarketDataCaches.ledger)
        rw [flushMarketDataCaches_ledger]
      · exact .refl
  | subscribe level2 l2Book l2 => exact .refl
  | subscribeServed => exact .refl
  | elsewhere draws =>
      refine .single (.sweep (show Sweep env .none .buy exchange.ledger
        { exchange.ledger with globals := exchange.ledger.globals.draw draws } from .tick ?_))
      exact ⟨Nat.le_add_right .., Nat.le_add_right .., Nat.le_add_right .., Nat.le_add_right ..,
        Nat.le_add_right ..⟩

/-- What an input needs of a permit that lets every order join. -/
def RequestLicence (permit : Permit) (env : Environment) (config : SymbolConfig)
    (exchange : Exchange β) : Input → Prop
  | .newOrder header msg => NewOrderLicence permit env config exchange header msg
  | .amend header msg => ModifyLicence permit env config exchange header msg
  | .cancel header msg => CancelLicence permit config exchange header msg
  | .marketOrder event => ∀ resting, exchange.ledger.entry event.bookOrderId = some resting →
      event.action = .change → event.requeue = false → permit.move resting
        { resting with
          price := event.price
          quantity := event.qty
          priority := effectivePriority resting.priority event.transactTime }
  | _ => True

theorem stepLicence_of_joins (free : ∀ ledger entry, permit.arrive ledger entry)
    (admitted : exchange.Admits env input) (licence : exchange.RequestLicence permit env config input) :
    exchange.StepLicence permit env config input := by
  have joins : ∀ (ledger : Ledger) (side : BookSide) (price : Int) (ranks : Ledger → Nat → Prop),
      ledger.MayJoin permit side price ranks := fun _ _ _ _ _ _ _ _ _ _ => free _ _
  have stamped : ∀ (exchange : Exchange β) (side : Side) (price qty : Int) (time : Nat),
      exchange.StampedJoin permit side price qty time := fun _ _ _ _ _ _ => joins _ _ _ _
  have levels : ∀ (exchange : Exchange β) (side : Side) (price qty : Int) (time : Nat),
      exchange.LevelJoin permit side price qty time := by
    intro exchange side price qty time
    unfold LevelJoin
    split
    · exact fun _ => stamped _ _ _ _ _
    · exact fun _ => joins _ _ _ _
  cases input with
  | newOrder header msg => exact licence
  | amend header msg => exact licence
  | cancel header msg => exact licence
  | level2Snapshot seqNum updates => exact fun _ _ _ _ => joins _ _ _ _
  | coinbaseEvent event => exact joins _ _ _ _
  | l2Snapshot snapshot => exact ⟨fun _ _ _ _ => stamped _ _ _ _ _, fun _ _ _ _ => stamped _ _ _ _ _⟩
  | l2Diff diff => exact ⟨fun _ _ _ _ => levels _ _ _ _ _, fun _ _ _ _ => levels _ _ _ _ _⟩
  | trades trades => exact fun _ _ _ _ => stamped _ _ _ _ _
  | marketOrder event => exact ⟨admitted.2, admitted.1, licence, free⟩
  | marketTrade event => trivial
  | flushMarketEvents => trivial
  | subscribe level2 l2Book l2 => trivial
  | subscribeServed => trivial
  | elsewhere draws => trivial

/-- Only a mirrored change needs a permit that restricts nothing but moves. -/
theorem requestLicence_of_moves {move : BookOrder → BookOrder → Prop} {arrive : Ledger → BookOrder → Prop}
    (moves : ∀ event, input = .marketOrder event → ∀ resting,
      exchange.ledger.entry event.bookOrderId = some resting → event.action = .change →
      event.requeue = false → move resting
        { resting with
          price := event.price
          quantity := event.qty
          priority := effectivePriority resting.priority event.transactTime }) :
    exchange.RequestLicence { Permit.all with move, arrive } env config input := by
  cases input with
  | newOrder header msg =>
      exact ⟨fun _ _ => trivial, fun _ => trivial, fun _ _ => trivial,
        fun _ _ _ _ _ _ _ _ _ => trivial⟩
  | amend header msg =>
      exact ⟨fun _ => trivial, fun _ _ _ => trivial, fun _ _ _ _ => ⟨trivial, fun _ _ => trivial⟩,
        fun _ _ _ _ => trivial, fun _ _ _ _ _ _ => trivial, fun _ _ _ _ _ _ _ _ _ _ _ => trivial⟩
  | cancel header msg => exact ⟨fun _ => trivial, fun _ _ _ => trivial⟩
  | marketOrder event => exact moves event rfl
  | _ => trivial

/-- What an input needs of terms that ask nothing of rejects and of amendments that end. -/
theorem requestLicence_of_terms {terms : Terms} (rejects : ∀ names name, terms.reject names name)
    (aborts : ∀ order, terms.abortAmend order) (rests : ∀ reports order, terms.amendRests reports order)
    (refuses : config.smpMode = .cancelNewest → terms.refuse)
    (accepts : ∀ header msg, input = .newOrder header msg → terms.accept exchange.ledger.responses
      (env.slot exchange.ledger.responses.length) (exchange.newOrder env config header msg))
    (amends : ∀ header msg ref, input = .amend header msg → header.symbol = config.symbol →
      selectOrder exchange.book msg.clientOrderId msg.orderId = some ref →
      terms.startAmend (exchange.matching.order ref) ∧
        ∀ slot order, terms.replace slot order msg.newPrice msg.newQty)
    (cancels : ∀ header msg ref, input = .cancel header msg → header.symbol = config.symbol →
      selectOrder exchange.book msg.clientOrderId msg.orderId = some ref →
      terms.cancel (exchange.matching.order ref)) :
    exchange.RequestLicence (terms.permit env) env config input := by
  cases input with
  | newOrder header msg =>
      exact ⟨fun _ _ => rejects _ _, fun _ => accepts header msg rfl, fun _ refused => refuses refused.1,
        fun _ _ _ _ _ _ _ _ _ => trivial⟩
  | amend header msg =>
      exact ⟨fun _ => rejects _ _, fun ref listed selected => (amends header msg ref rfl listed selected).1,
        fun _ _ _ _ => ⟨aborts _, fun _ _ => rejects _ _⟩,
        fun ref listed selected _ => (amends header msg ref rfl listed selected).2 _ _,
        fun _ _ _ _ _ _ => rests _ _, fun _ _ _ _ _ _ _ _ _ _ _ => trivial⟩
  | cancel header msg =>
      exact ⟨fun _ => rejects _ _, fun ref listed selected => cancels header msg ref rfl listed selected⟩
  | marketOrder event => exact fun _ _ _ _ => trivial
  | _ => trivial

/-- No input that can come breaks the representation. -/
theorem step_represents (inv : exchange.ledger.Represents .none) (totalled : exchange.ledger.Totalled)
    (admitted : exchange.Admits env input) :
    (exchange.step env config input).ledger.Represents .none :=
  (step_micros inv totalled admitted (stepLicence_of_joins (show ∀ ledger entry,
    Permit.all.arrive ledger entry from fun _ _ => trivial) admitted
    (requestLicence_of_moves fun _ _ _ _ _ _ => trivial))).represents inv

/-! ## Reachable states -/

theorem new_ledger (pool : Nat → Order) (publishOrderUpdates : Bool) :
    (Exchange.new pool publishOrderUpdates : Exchange β).ledger = Ledger.initial pool := by
  have nothing : OrderBookL3.findOrder (OrderBookL3.empty : β) = fun _ => none := by
    funext id
    apply OrderBookL3.findOrder_eq_none.mpr
    intro order member
    simp [OrderBookL3.allOrders, OrderBookL3.empty_restingOrders] at member
  show OrderBook.ledger (OrderBook.new pool) [] = _
  unfold OrderBook.ledger OrderBook.new
  simp only [nothing]
  rfl

theorem new_represents (pool : Nat → Order) (publishOrderUpdates : Bool) :
    (Exchange.new pool publishOrderUpdates : Exchange β).ledger.Represents .none := by
  rw [new_ledger]
  have unregistered : ∀ ref, ¬ (Ledger.initial pool).Registered ref := by rintro ref ⟨⟩
  constructor
  · exact {
      owner_id := by rintro _ _ ⟨⟩
      byClient_iff := ⟨by rintro ⟨⟩, fun held => absurd held.2.1 (unregistered _)⟩
      byOrder_iff := ⟨by rintro ⟨⟩, fun held => absurd held.2.1 (unregistered _)⟩
      registered_owned := fun inside => absurd inside (unregistered _)
      entry_id := by rintro _ _ ⟨⟩
      entry_owned := by rintro _ _ ⟨⟩
      entry_bound := by rintro _ _ ⟨⟩
      owned_bound := by rintro _ ⟨-, _, ⟨⟩, -⟩
      numbered := Nat.one_pos
      live_iff := by
        intro ref
        constructor
        · rintro ⟨⟩
        · rintro (inside | held)
          · exact absurd inside (unregistered ref)
          · cases held
      live_nodup := List.nodup_nil
      freedOnce := rfl
      resting_registered := by rintro _ ⟨⟩
      fresh_unregistered := by rintro _ ⟨⟩
      fresh_absent := by rintro _ ⟨⟩
      fresh_owned := by rintro _ ⟨⟩
      fresh_client := by rintro _ ⟨⟩
      fresh_order := by rintro _ ⟨⟩ }
  · refine ⟨fun ref => ?_, by rintro _ _ ⟨⟩⟩
    exact {
      rests := fun inside => absurd inside (unregistered ref)
      lags := by rintro ⟨⟩
      filled_nonneg := by
        rintro (inside | held)
        · exact absurd inside (unregistered ref)
        · cases held
      durable := fun inside => absurd inside (unregistered ref)
      ranked := fun inside => absurd inside (unregistered ref)
      whole := by rintro ⟨⟩ }

theorem new_totalled (pool : Nat → Order) (publishOrderUpdates : Bool) :
    (Exchange.new pool publishOrderUpdates : Exchange β).ledger.Totalled := by
  rw [new_ledger]
  intro price
  symm
  apply Finset.sum_eq_zero
  intro id _
  rfl

namespace Reachable

/-- What every run of effects from an empty hand to an empty hand keeps holds in every
reachable state. -/
theorem invariant {Inv : Ledger → Prop}
    (start : ∀ pool publishOrderUpdates,
      Inv (Exchange.new pool publishOrderUpdates : Exchange β).ledger)
    (licensed : ∀ (exchange : Exchange β) (input : Input), exchange.ledger.Represents .none →
      exchange.ledger.Totalled → Inv exchange.ledger → exchange.Admits env input → allowed exchange input →
      exchange.StepLicence permit env config input)
    (keeps : ∀ {before after : Ledger}, before.Represents .none → before.Totalled → Inv before →
      Micros env permit (.none, before) (.none, after) → Inv after)
    (reachable : Reachable env config allowed exchange) :
    exchange.ledger.Represents .none ∧ exchange.ledger.Totalled ∧ Inv exchange.ledger := by
  induction reachable with
  | new pool publishOrderUpdates =>
      exact ⟨new_represents pool _, new_totalled pool _, start pool publishOrderUpdates⟩
  | @step exchange earlier input admitted permitted ih =>
      obtain ⟨inv, totalled, kept⟩ := ih
      have run := step_micros inv totalled admitted
        (licensed exchange input inv totalled kept admitted permitted)
      exact ⟨run.represents inv, run.totalled inv totalled, keeps inv totalled kept run⟩

theorem represents (reachable : Reachable env config allowed exchange) :
    exchange.ledger.Represents .none ∧ exchange.ledger.Totalled := by
  obtain ⟨inv, totalled, -⟩ := @invariant β _ env config Permit.all exchange allowed (fun _ => True)
    (fun _ _ => trivial)
    (fun _ _ _ _ _ admitted _ => stepLicence_of_joins (fun _ _ => trivial) admitted
      (requestLicence_of_moves fun _ _ _ _ _ _ => trivial))
    (fun _ _ _ _ => trivial) reachable
  exact ⟨inv, totalled⟩

/-- Behind every order number of a reachable state is a life, from its birth. -/
theorem lived (terms : Terms) (reachable : Reachable env config allowed exchange)
    (licensed : ∀ (exchange : Exchange β) (input : Input), exchange.ledger.Represents .none →
      exchange.Admits env input → allowed exchange input →
      exchange.RequestLicence (terms.permit env) env config input) {id : Nat} (nonzero : id ≠ 0) :
    ∃ life, exchange.ledger.Lives .none id life ∧
      Relation.ReflTransGen (LifeStep terms) (.unborn, []) (life, exchange.ledger.reports id) := by
  refine (@invariant β _ env config (terms.permit env) exchange allowed (fun ledger => ∃ life,
    ledger.Lives .none id life ∧
      Relation.ReflTransGen (LifeStep terms) (.unborn, []) (life, ledger.reports id))
    ?_ ?_ ?_ reachable).2.2
  · intro pool publishOrderUpdates
    rw [new_ledger]
    exact ⟨.unborn, rfl, .refl⟩
  · intro exchange input inv _ _ admitted permitted
    exact stepLicence_of_joins (fun _ _ => trivial) admitted (licensed exchange input inv admitted permitted)
  · rintro before after inv - ⟨life, lives, past⟩ run
    obtain ⟨life', lives', path⟩ := run.livesOn inv nonzero lives
    exact ⟨life', lives', past.trans path⟩

end Reachable

end Exchange

end SlickSim
