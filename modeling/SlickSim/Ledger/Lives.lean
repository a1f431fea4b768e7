import SlickSim.Ledger.OrderLife

/-!
# Every effect is a step in one life

`Micro.lives` is the simulation: under every order number, an effect of the ledger
machine leaves the life as it is or takes one `LifeStep`.
-/

set_option autoImplicit false

namespace SlickSim

open Ledger

/-- The life behind an order number goes on. -/
def LivesOn (terms : Terms) (id : Nat) (before after : Hand × Ledger) (life : Life) : Prop :=
  ∃ life', after.2.Lives after.1 id life' ∧
    Relation.ReflTransGen (LifeStep terms) (life, before.2.reports id) (life', after.2.reports id)

section LivesOn

variable {terms : Terms} {env : Environment} {hand hand' : Hand} {ledger after : Ledger} {ref id : Nat}
  {life life' : Life} {stage : Stage}

theorem LivesOn.of_keeps {before after : Hand × Ledger} (lives : before.2.Lives before.1 id life)
    (keeps : Keeps id before after) : LivesOn terms id before after life :=
  ⟨life, lives.keeps keeps, by rw [keeps.reports]⟩

theorem LivesOn.quiet (lives : ledger.Lives hand id life) (responses : after.responses = ledger.responses)
    (owner : after.owner = ledger.owner) (heap : after.heap = ledger.heap) :
    LivesOn terms id (hand, ledger) (hand, after) life :=
  .of_keeps (show Ledger.Lives (hand, ledger).2 (hand, ledger).1 id life from lives)
    (.quiet responses owner heap)

/-- The effect is a step of one order, which it finds alive. -/
structure StepsAlone (terms : Terms) (ref : Nat) (stage : Stage) (life' : Life)
    (before after : Hand × Ledger) : Prop where
  alive : before.1.held = some (stage, ref) ∨
    stage = .resting ∧ before.2.Registered ref ∧ before.1.resting ≠ some ref
  step : LifeStep terms (.alive stage (before.2.heap ref), before.2.reports (before.2.heap ref).id)
    (life', after.2.reports (before.2.heap ref).id)
  lives : (stage = .pending →
      before.2.ReportsPending (before.2.heap ref).id (before.2.heap ref).clientOrderId) →
    after.2.Lives after.1 (before.2.heap ref).id life'
  heap : ∃ order, after.2.heap = Function.update before.2.heap ref order ∧ order.id = (before.2.heap ref).id
  owner : ∀ id, id ≠ (before.2.heap ref).id → after.2.owner id = before.2.owner id
  responses : after.2.responses = before.2.responses ∨ ∃ response,
    after.2.responses = before.2.responses ++ [response] ∧
      (response.orderNum = 0 ∨ response.orderNum = (before.2.heap ref).id)
  hands : after.1 = before.1 ∨ (∀ other, before.1.order = some other → other = ref) ∧
    ∀ other, after.1.order = some other → other = ref

theorem StepsAlone.livesOn {before after : Hand × Ledger}
    (steps : StepsAlone terms ref stage life' before after) (inv : before.2.Represents before.1)
    (nonzero : id ≠ 0) (lives : before.2.Lives before.1 id life) : LivesOn terms id before after life := by
  by_cases same : (before.2.heap ref).id = id
  · subst same
    have isAlive : life = .alive stage (before.2.heap ref) := by
      rcases steps.alive with held | ⟨rfl, inside, apart⟩
      · exact lives.of_held inv held
      · exact lives.of_registered inv inside apart
    subst isAlive
    obtain ⟨other, -, -, -, pending⟩ := lives
    exact ⟨life', steps.lives pending, .single steps.step⟩
  · obtain ⟨order, heap, sameId⟩ := steps.heap
    refine .of_keeps lives (.other ref (fun _ => same) ?_ ?_ (steps.owner id (Ne.symm same)) ?_ ?_ steps.hands)
    · rw [heap, Function.update_self, sameId]
      exact same
    · intro other different
      rw [heap, Function.update_of_ne different]
    · rcases steps.responses with quiet | ⟨response, published, numbered⟩
      · unfold Ledger.reports
        rw [quiet]
      · refine reports_append_other published ?_
        rcases numbered with zero | mine
        · rw [zero]
          exact nonzero.symm
        · rw [mine]
          exact same
    · rcases steps.responses with quiet | ⟨response, published, -⟩
      · rw [quiet]
      · rw [published]
        exact List.sublist_append_left ..

/-- The effect reports the order in hand. -/
theorem StepsAlone.of_hand {stage' : Stage} {order : Order} {response : OrderResponse}
    (held : hand.held = some (stage, ref)) (held' : hand'.held = some (stage', ref))
    (later : stage' ≠ .pending) (heap : after.heap = Function.update ledger.heap ref order)
    (sameId : order.id = (ledger.heap ref).id) (owner : after.owner = ledger.owner)
    (published : after.responses = ledger.responses ++ [response])
    (numbered : response.orderNum = (ledger.heap ref).id)
    (step : LifeStep terms (.alive stage (ledger.heap ref), ledger.reports (ledger.heap ref).id)
      (.alive stage' order, ledger.reports (ledger.heap ref).id ++ [response])) :
    StepsAlone terms ref stage (.alive stage' order) (hand, ledger) (hand', after) where
  alive := .inl held
  step := by
    show LifeStep terms _ (_, after.reports _)
    rw [reports_append_self published numbered]
    exact step
  lives := fun _ => ⟨ref, by rw [heap, Function.update_self], sameId, .inl held',
    fun isPending => absurd isPending later⟩
  heap := ⟨order, heap, sameId⟩
  owner := fun _ _ => by rw [show after.owner = _ from owner]
  responses := .inr ⟨response, published, .inr numbered⟩
  hands := by
    refine .inr ⟨fun other inHand => ?_, fun other inHand => ?_⟩
    · rw [show hand.order = some ref from Hand.order_of_held held] at inHand
      exact (Option.some.inj inHand).symm
    · rw [show hand'.order = some ref from Hand.order_of_held held'] at inHand
      exact (Option.some.inj inHand).symm

theorem lives_alive {order : Order} (heap : after.heap ref = order) (sameId : order.id = id)
    (atStage : after.AtStage hand' ref stage) (later : stage ≠ .pending) :
    after.Lives hand' id (.alive stage order) :=
  ⟨ref, heap, sameId, atStage, fun isPending => absurd isPending later⟩

private theorem livesOn_phantom {number timestamp : Nat} {next : Option BookOrder}
    (inv : ledger.Represents hand) (phantom : ledger.owner number = none)
    (keyed : ∀ order, next = some order → order.orderId = number) (lives : ledger.Lives hand id life) :
    LivesOn terms id (hand, ledger) (hand, ledger.setEntry number next timestamp) life := by
  rw [setEntry_phantom (fun _ found => inv.indexed.entry_id found) keyed phantom]
  exact .quiet lives rfl rfl rfl

end LivesOn

/-! ## Sweeps -/

namespace Sweep

variable {terms : Terms} {env : Environment} {hand : Hand} {side : BookSide} {ledger after : Ledger}
  {ref timestamp : Nat} {resting : BookOrder}

/-- What rests under one of our ids is the pooled order. -/
theorem resting_is (inv : ledger.Represents hand)
    (rests : ledger.entry resting.orderId = some resting)
    (ours : ledger.owner resting.orderId = some ref) (apart : hand.resting ≠ some ref) :
    ledger.Registered ref ∧ resting = ledger.entryOf ref := by
  have inside := inv.indexed.registered ours
  have caughtUp : hand.lagging ≠ some ref := by
    intro lags
    apply apart
    cases hand <;> cases lags <;> rfl
  obtain ⟨isEntry, -⟩ := (inv.agrees.at_ ref).rests inside caughtUp
  rw [inv.indexed.owner_id ours] at isEntry
  exact ⟨inside, Option.some.inj (rests.symm.trans isEntry)⟩

/-- An order out of the maps that no request works on is absent. -/
private theorem absent_of_unregistered (inv : ledger.Represents hand) (inside : ledger.Registered ref)
    {order : Order} (heap : after.heap = Function.update ledger.heap ref order)
    (owner : after.owner = Function.update ledger.owner (ledger.heap ref).id none) :
    after.Absent hand (ledger.heap ref).id := by
  refine ⟨by rw [owner, Function.update_self], ?_⟩
  intro other fresh sameId
  have nothing := inv.indexed.fresh_unregistered fresh
  by_cases same : other = ref
  · rw [same, show ledger.owner (ledger.heap ref).id = some ref from inside] at nothing
    cases nothing
  · rw [heap, Function.update_of_ne same] at sameId
    rw [sameId, show ledger.owner (ledger.heap ref).id = some ref from inside] at nothing
    cases nothing

theorem cancelOrder_owner (requestTime : Nat) :
    (ledger.cancelOrder env ref timestamp requestTime).owner =
      Function.update ledger.owner (ledger.heap ref).id none := by
  show Function.update ledger.owner ((ledger.updateOrder ref Order.withoutLeaves).heap ref).id none = _
  rw [updateOrder_heap_self]
  rfl

private theorem leaves_steps {hand' : Hand} {stage : Stage} {order : Order} {response : OrderResponse}
    (alive : ledger.AtStage hand ref stage) (absent : after.Absent hand' (ledger.heap ref).id)
    (hands : hand' = hand ∨ (∀ other, hand.order = some other → other = ref) ∧
      ∀ other, hand'.order = some other → other = ref)
    (heap : after.heap = Function.update ledger.heap ref order) (sameId : order.id = (ledger.heap ref).id)
    (owner : after.owner = Function.update ledger.owner (ledger.heap ref).id none)
    (published : after.responses = ledger.responses ++ [response])
    (numbered : response.orderNum = (ledger.heap ref).id)
    (step : LifeStep terms (.alive stage (ledger.heap ref), ledger.reports (ledger.heap ref).id)
      (.gone, ledger.reports (ledger.heap ref).id ++ [response])) :
    StepsAlone terms ref stage .gone (hand, ledger) (hand', after) where
  alive := alive
  step := by
    show LifeStep terms _ (_, after.reports _)
    rw [reports_append_self published numbered]
    exact step
  lives := by
    intro _
    refine ⟨?_, absent⟩
    rw [reports_append_self published numbered]
    exact List.append_ne_nil_of_right_ne_nil _ (List.cons_ne_nil _ _)
  heap := ⟨order, heap, sameId⟩
  owner := fun id different => by
    show after.owner id = _
    rw [owner, Function.update_of_ne different]
  responses := .inr ⟨response, published, .inr numbered⟩
  hands := hands

theorem cancelOrder_steps {hand' : Hand} {stage : Stage} {requestTime : Nat}
    (alive : ledger.AtStage hand ref stage) (rests : stage = .resting ∨ stage = .cancelling)
    (absent : (ledger.cancelOrder env ref timestamp requestTime).Absent hand' (ledger.heap ref).id)
    (hands : hand' = hand ∨ (∀ other, hand.order = some other → other = ref) ∧
      ∀ other, hand'.order = some other → other = ref) :
    StepsAlone terms ref stage .gone (hand, ledger)
      (hand', ledger.cancelOrder env ref timestamp requestTime) := by
  refine leaves_steps alive absent hands rfl rfl (cancelOrder_owner ..)
    (show _ = ledger.responses ++ [(env.slot ledger.responses.length).writeCancel
      (ledger.heap ref).withoutLeaves requestTime] from ?_) rfl (.cancelResting rests)
  have self : (ledger.updateOrder ref Order.withoutLeaves).heap ref =
    (ledger.heap ref).withoutLeaves := updateOrder_heap_self _
  rw [← self]
  rfl

theorem livesOn {id : Nat} {life : Life} (swept : Sweep env hand side ledger after)
    (inv : ledger.Represents hand) (nonzero : id ≠ 0) (lives : ledger.Lives hand id life) :
    LivesOn terms id (hand, ledger) (hand, after) life := by
  cases swept with
  | tick later => exact .quiet lives rfl rfl rfl
  | hitPhantom rests swept phantom positive within =>
      refine livesOn_phantom inv phantom ?_ lives
      intro order left
      obtain ⟨-, rfl⟩ := afterExecution_eq_some left
      rfl
  | @hitPartly resting ref qty timestamp rests swept ours apart positive within =>
      obtain ⟨inside, isEntry⟩ := resting_is inv rests ours apart
      let order := (ledger.heap ref).execute (ledger.heap ref).price qty timestamp
      have self : (ledger.updateOrder ref fun order => order.execute order.price qty timestamp).heap ref =
        order := updateOrder_heap_self _
      have published : (ledger.fillPartly env ref resting qty timestamp).responses = ledger.responses ++
          [(env.slot ledger.responses.length).writeExecution order false] := by
        rw [← self]
        rfl
      have numbered : ((env.slot ledger.responses.length).writeExecution order false).orderNum =
        (ledger.heap ref).id := rfl
      have steps : StepsAlone terms ref .resting (.alive .resting order) (hand, ledger)
          (hand, ledger.fillPartly env ref resting qty timestamp) := {
        alive := .inr ⟨rfl, inside, apart⟩
        step := by
          show LifeStep terms _ (_, Ledger.reports _ _)
          rw [reports_append_self published numbered]
          refine .fillPartly positive ?_
          rw [isEntry] at within
          exact within
        lives := by
          intro _
          refine lives_alive self rfl (.inr ⟨rfl, ?_, apart⟩) (by rintro ⟨⟩)
          show ledger.owner ((ledger.fillPartly env ref resting qty timestamp).heap ref).id = some ref
          rw [show (ledger.fillPartly env ref resting qty timestamp).heap ref = order from self]
          exact inside
        heap := ⟨order, rfl, rfl⟩
        owner := fun _ _ => rfl
        responses := .inr ⟨_, published, .inr numbered⟩
        hands := .inl rfl }
      exact steps.livesOn inv nonzero lives
  | @hitFully resting ref timestamp rests swept ours apart =>
      obtain ⟨inside, isEntry⟩ := resting_is inv rests ours apart
      let order := (ledger.heap ref).execute (ledger.heap ref).price resting.quantity timestamp
      have self : (ledger.updateOrder ref fun order =>
        order.execute order.price resting.quantity timestamp).heap ref = order := updateOrder_heap_self _
      have heap : (ledger.fillFully env ref resting timestamp).heap =
        Function.update ledger.heap ref order := rfl
      have owner : (ledger.fillFully env ref resting timestamp).owner =
          Function.update ledger.owner (ledger.heap ref).id none := by
        show Function.update ledger.owner
          ((ledger.updateOrder ref fun order => order.execute order.price resting.quantity timestamp).heap
            ref).id none = _
        rw [self]
        rfl
      refine StepsAlone.livesOn (leaves_steps (.inr ⟨rfl, inside, apart⟩)
        (absent_of_unregistered inv inside heap owner) (.inl rfl) heap rfl owner (show _ = ledger.responses ++
          [(env.slot ledger.responses.length).writeExecution order false] from ?_) rfl ?_) inv nonzero lives
      · rw [← self]
        rfl
      · have whole : order = (ledger.heap ref).execute (ledger.heap ref).price
            (ledger.heap ref).leavesQuantity timestamp := by
          show (ledger.heap ref).execute _ resting.quantity _ = _
          rw [isEntry]
          rfl
        rw [whole]
        exact .fillFully
  | @cancelOwn ref timestamp requestTime resting rests swept ours apart =>
      obtain ⟨inside, -⟩ := resting_is inv rests ours apart
      exact (cancelOrder_steps (.inr ⟨rfl, inside, apart⟩) (.inl rfl)
        (absent_of_unregistered inv inside rfl (cancelOrder_owner requestTime)) (.inl rfl)).livesOn inv nonzero
        lives
  | @aggress ref timestamp price qty held positive within =>
      let order := (ledger.heap ref).execute price qty timestamp
      have self : (ledger.updateOrder ref fun order => order.execute price qty timestamp).heap ref =
        order := updateOrder_heap_self _
      obtain ⟨stage, isHeld, matching⟩ : ∃ stage, hand.held = some (stage, ref) ∧
          (stage = .working ∨ stage = .amended) := by
        cases hand <;> cases held
        · exact ⟨_, rfl, .inl rfl⟩
        · exact ⟨_, rfl, .inr rfl⟩
      have steps : StepsAlone terms ref stage (.alive stage order) (hand, ledger)
          (hand, (ledger.updateOrder ref fun order => order.execute price qty timestamp).publish env
            fun slot => slot.writeExecution order true) :=
        .of_hand isHeld isHeld (by rcases matching with rfl | rfl <;> rintro ⟨⟩) rfl rfl rfl rfl rfl
          (.aggress matching positive within)
      exact steps.livesOn inv nonzero lives

end Sweep

/-! ## Requests -/

section Requests

variable {terms : Terms} {env : Environment} {hand : Hand} {ledger after : Ledger} {ref id : Nat}
  {life : Life} {stage : Stage}

/-- A response under no number concerns no order. -/
private theorem livesOn_reject {response : OrderResponse} (lives : ledger.Lives hand id life)
    (nonzero : id ≠ 0) (published : after.responses = ledger.responses ++ [response])
    (unnumbered : response.orderNum = 0) (owner : after.owner = ledger.owner)
    (heap : after.heap = ledger.heap) : LivesOn terms id (hand, ledger) (hand, after) life := by
  have keeps : Keeps id (hand, ledger) (hand, after) := {
    reports := reports_append_other published (by rw [unnumbered]; exact nonzero.symm)
    published := by
      rw [show (hand, after).2.responses = _ from published]
      exact List.sublist_append_left ..
    owner := by rw [show (hand, after).2.owner = _ from owner]
    heap := fun _ _ _ => congrFun heap _
    hand := fun _ _ _ => rfl
    nextHand := fun _ _ _ => rfl }
  exact LivesOn.of_keeps (show Ledger.Lives (hand, ledger).2 (hand, ledger).1 id life from lives) keeps

private theorem livesOn_touch {status : OrderStatus} {lastUpdateTime requestTag : Nat}
    (lives : ledger.Lives hand id life) :
    LivesOn terms id (hand, ledger)
      (hand, ledger.updateOrder ref (Order.touch status lastUpdateTime requestTag)) life := by
  let touched := ledger.updateOrder ref (Order.touch status lastUpdateTime requestTag)
  have identity : ∀ other, (touched.heap other).SameIdentity (ledger.heap other) :=
    updateOrder_identity ledger ⟨rfl, rfl, rfl⟩
  have absent : ledger.Absent hand id → touched.Absent hand id := by
    rintro ⟨nothing, noneFresh⟩
    refine ⟨nothing, fun other fresh sameId => noneFresh other fresh ?_⟩
    rw [← (identity other).id]
    exact sameId
  cases life with
  | unborn => exact ⟨.unborn, lives, .refl⟩
  | alive stage order =>
      obtain ⟨other, rfl, sameId, atStage, pending⟩ := lives
      have atStage' : touched.AtStage hand other stage := by
        refine atStage.imp_right ?_
        rintro ⟨isResting, inside, apart⟩
        exact ⟨isResting, (registered_of_identity identity rfl).mpr inside, apart⟩
      have alive : touched.Lives hand id (.alive stage (touched.heap other)) := by
        refine ⟨other, rfl, (identity other).id.trans sameId, atStage', ?_⟩
        rw [(identity other).clientOrderId]
        exact pending
      refine ⟨_, alive, ?_⟩
      by_cases same : other = ref
      · subst same
        rw [show touched.heap other = _ from updateOrder_heap_self _]
        exact .single .touch
      · rw [show touched.heap other = _ from updateOrder_heap_of_ne _ same]
        exact .refl
  | turnedAway =>
      obtain ⟨reported, gone, told⟩ := lives
      refine ⟨.turnedAway, ⟨reported, absent gone, ?_⟩, .refl⟩
      refine told.imp_right ?_
      rintro ⟨other, isHand, sameId, pending⟩
      refine ⟨other, isHand, (identity other).id.trans sameId, ?_⟩
      rw [(identity other).clientOrderId]
      exact pending
  | gone => exact ⟨.gone, ⟨lives.1, absent lives.2⟩, .refl⟩

private theorem drop_steps (inv : ledger.Represents hand) (fresh : hand.fresh = some ref)
    (held : hand.held = some (stage, ref))
    (step : LifeStep terms (.alive stage (ledger.heap ref), ledger.reports (ledger.heap ref).id)
      (.gone, ledger.reports (ledger.heap ref).id)) :
    StepsAlone terms ref stage .gone (hand, ledger) (.none, ledger.freeOrder ref) where
  alive := .inl held
  step := step
  lives := fun _ => ⟨(owned_iff_reports.mp (inv.indexed.fresh_owned fresh)).2,
    inv.indexed.fresh_unregistered fresh, by rintro _ ⟨⟩⟩
  heap := ⟨ledger.heap ref, (Function.update_eq_self ref _).symm, rfl⟩
  owner := fun _ _ => rfl
  responses := .inl rfl
  hands := by
    refine .inr ⟨fun other inHand => ?_, by rintro _ ⟨⟩⟩
    rw [show hand.order = some ref from Hand.order_of_held held] at inHand
    exact (Option.some.inj inHand).symm

private theorem rest_steps {order : Order} (held : hand.held = some (stage, ref))
    (heap : after.heap = Function.update ledger.heap ref order) (sameId : order.id = (ledger.heap ref).id)
    (inside : after.owner (ledger.heap ref).id = some ref)
    (owner : ∀ id, id ≠ (ledger.heap ref).id → after.owner id = ledger.owner id)
    (quiet : after.responses = ledger.responses)
    (step : LifeStep terms (.alive stage (ledger.heap ref), ledger.reports (ledger.heap ref).id)
      (.alive .resting order, ledger.reports (ledger.heap ref).id)) :
    StepsAlone terms ref stage (.alive .resting order) (hand, ledger) (.none, after) where
  alive := .inl held
  step := by
    have same : after.reports (ledger.heap ref).id = ledger.reports (ledger.heap ref).id := by
      unfold Ledger.reports
      rw [quiet]
    show LifeStep terms _ (_, after.reports _)
    rw [same]
    exact step
  lives := by
    intro _
    have self : after.heap ref = order := by rw [heap, Function.update_self]
    refine lives_alive self sameId (.inr ⟨rfl, ?_, by rintro ⟨⟩⟩) (by rintro ⟨⟩)
    rw [Registered, self, sameId]
    exact inside
  heap := ⟨order, heap, sameId⟩
  owner := owner
  responses := .inl quiet
  hands := by
    refine .inr ⟨fun other inHand => ?_, by rintro _ ⟨⟩⟩
    rw [show hand.order = some ref from Hand.order_of_held held] at inHand
    exact (Option.some.inj inHand).symm

private theorem mark_steps {order : Order} {response : OrderResponse} {hand' : Hand} {stage' : Stage}
    (inside : ledger.Registered ref)
    (heap : after.heap = Function.update ledger.heap ref order) (sameId : order.id = (ledger.heap ref).id)
    (owner : after.owner = ledger.owner)
    (published : after.responses = ledger.responses ++ [response])
    (numbered : response.orderNum = (ledger.heap ref).id)
    (held : hand'.held = some (stage', ref)) (later : stage' ≠ .pending)
    (step : LifeStep terms (.alive .resting (ledger.heap ref), ledger.reports (ledger.heap ref).id)
      (.alive stage' order, ledger.reports (ledger.heap ref).id ++ [response])) :
    StepsAlone terms ref .resting (.alive stage' order) (.none, ledger) (hand', after) where
  alive := .inr ⟨rfl, inside, by rintro ⟨⟩⟩
  step := by
    show LifeStep terms _ (_, after.reports _)
    rw [reports_append_self published numbered]
    exact step
  lives := by
    intro _
    have self : after.heap ref = order := by rw [heap, Function.update_self]
    exact lives_alive self sameId (.inl held) later
  heap := ⟨order, heap, sameId⟩
  owner := fun _ _ => by rw [show (hand', after).2.owner = _ from owner]
  responses := .inr ⟨response, published, .inr numbered⟩
  hands := by
    refine .inr ⟨by rintro _ ⟨⟩, fun other inHand => ?_⟩
    rw [show hand'.order = some ref from Hand.order_of_held held] at inHand
    exact (Option.some.inj inHand).symm

private theorem amended_held (held : hand = .amended ref ∨ hand = .closing ref) :
    ∃ stage, hand.held = some (stage, ref) ∧ hand.resting = some ref ∧
      (stage = .amended ∨ stage = .closing) := by
  rcases held with rfl | rfl
  · exact ⟨_, rfl, rfl, .inl rfl⟩
  · exact ⟨_, rfl, rfl, .inr rfl⟩

private theorem livesOn_accept {requestTime : Nat} {order : Order} {globals : Globals}
    (inv : ledger.Represents .none) (unused : ref ∉ ledger.live)
    (numbered : order.id = ledger.globals.nextOrderId) (named : order.orderId.isEmpty = false)
    (whole : order.leavesQuantity = order.quantity)
    (unfilled : order.cumQuantity = 0) (unpriced : order.avgFillPrice = 0)
    (permitted : terms.accept ledger.responses (env.slot ledger.responses.length) order)
    (lives : ledger.Lives .none id life) (nonzero : id ≠ 0) :
    LivesOn terms id (.none, ledger) (.pending ref,
      { ledger with
        heap := Function.update ledger.heap ref order
        live := ref :: ledger.live
        globals }.publish env fun slot => slot.writeNewPending order requestTime) life := by
  let response := (env.slot ledger.responses.length).writeNewPending order requestTime
  let after : Ledger := { ledger with
    heap := Function.update ledger.heap ref order
    live := ref :: ledger.live
    globals }.publish env fun slot => slot.writeNewPending order requestTime
  have published : after.responses = ledger.responses ++ [response] := rfl
  have self : after.heap ref = order := Function.update_self ..
  have outside : ∀ other, ledger.Registered other → other ≠ ref := by
    rintro other inside rfl
    exact unused (inv.indexed.live_iff.mpr (.inl inside))
  by_cases same : id = order.id
  · subst same
    have unborn : ledger.reports order.id = [] := by
      by_contra some
      have bound := inv.indexed.owned_bound (owned_iff_reports.mpr ⟨nonzero, some⟩)
      omega
    have isUnborn : life = .unborn := by
      cases life with
      | unborn => rfl
      | alive stage other =>
          obtain ⟨ref', rfl, sameId, held | ⟨-, inside, -⟩, -⟩ := lives
          · cases held
          · have owned := inv.indexed.registered_owned inside
            rw [sameId] at owned
            exact absurd unborn (owned_iff_reports.mp owned).2
      | turnedAway => exact absurd unborn lives.1
      | gone => exact absurd unborn lives.1
    subst isUnborn
    refine ⟨.alive .pending order, ⟨ref, self, rfl, .inl rfl, fun _ => ?_⟩, ?_⟩
    · exact ⟨response, List.mem_append_right _ (List.mem_singleton_self _), rfl, rfl, rfl⟩
    · show Relation.ReflTransGen _ (_, ledger.reports order.id) (_, after.reports order.id)
      rw [reports_append_self published (show response.orderNum = order.id from rfl), unborn]
      exact .single (.accept named whole unfilled unpriced permitted)
  · refine .of_keeps (show Ledger.Lives (Hand.none, ledger).2 (Hand.none, ledger).1 id life from lives)
      (.other ref ?_ ?_ ?_ rfl ?_ (List.sublist_append_left ..) (.inr ⟨by rintro _ ⟨⟩, ?_⟩))
    · rintro (inside | held)
      · exact absurd rfl (outside ref inside)
      · cases held
    · show (after.heap ref).id ≠ id
      rw [self]
      exact Ne.symm same
    · exact fun other different => Function.update_of_ne different ..
    · exact reports_append_other published (Ne.symm same)
    · rintro other ⟨⟩
      rfl

private theorem livesOn_rejectRefused {timestamp : Nat} {header : RequestHeader} {userId : Name}
    {price qty : Int} (lives : ledger.Lives (.refused ref) id life) (nonzero : id ≠ 0) :
    LivesOn terms id (.refused ref, ledger) (.none, ledger.publish env fun slot =>
      slot.writeReject header userId (ledger.heap ref).clientOrderId default price qty .smp timestamp)
      life := by
  let response := (env.slot ledger.responses.length).writeReject header userId
    (ledger.heap ref).clientOrderId default price qty .smp timestamp
  let after := ledger.publish env fun slot =>
    slot.writeReject header userId (ledger.heap ref).clientOrderId default price qty .smp timestamp
  have published : after.responses = ledger.responses ++ [response] := rfl
  have reports : after.reports id = ledger.reports id := reports_append_other published nonzero.symm
  have absent : ledger.Absent (.refused ref) id → after.Absent .none id := fun gone =>
    ⟨gone.1, by rintro _ ⟨⟩⟩
  refine ⟨life, ?_, by rw [show Ledger.reports _ id = _ from reports]⟩
  cases life with
  | unborn => exact reports.trans lives
  | alive stage order =>
      obtain ⟨other, isOrder, sameId, held | ⟨rfl, inside, -⟩, -⟩ := lives
      · cases held
      · exact lives_alive isOrder sameId (.inr ⟨rfl, inside, by rintro ⟨⟩⟩) (by rintro ⟨⟩)
  | turnedAway =>
      obtain ⟨reported, gone, told⟩ := lives
      refine ⟨by rw [reports]; exact reported, absent gone, .inl ?_⟩
      rcases told with told | ⟨other, isHand, -, report, member, sameId, isPending, sameName⟩
      · exact told.mono (List.sublist_append_left ..)
      · cases isHand
        refine ⟨report, response, ?_, sameId, isPending, rfl, rfl, rfl, sameName.symm⟩
        exact (List.singleton_sublist.mpr member).append (List.Sublist.refl [response])
  | gone => exact ⟨by rw [reports]; exact lives.1, absent lives.2⟩

private theorem livesOn_rest {timestamp : Nat} {globals : Globals} {ranked : Ledger} (inv : ledger.Represents (.working ref))
    (left : 0 < (ledger.heap ref).leavesQuantity)
    (isRanked : ranked = { ledger with globals }.updateOrder ref (Order.withPriority globals.nextPriority))
    (nonzero : id ≠ 0) (lives : ledger.Lives (.working ref) id life) :
    LivesOn terms id (.working ref, ledger) (.none,
      (ranked.registerOrder ref).placeEntry (ledger.heap ref).id (some (ranked.entryOf ref)) timestamp) life := by
  subst isRanked
  have nothing := inv.indexed.fresh_unregistered (show (Hand.working ref).fresh = some ref from rfl)
  let order := (ledger.heap ref).withPriority globals.nextPriority
  let ranked := { ledger with globals }.updateOrder ref (Order.withPriority globals.nextPriority)
  have self : ranked.heap ref = order := updateOrder_heap_self _
  have owner : (ranked.registerOrder ref).owner =
      Function.update ledger.owner (ledger.heap ref).id (some ref) := by
    show emplaceAt ledger.owner (ranked.heap ref).id ref = _
    rw [self]
    unfold emplaceAt
    rw [show ledger.owner order.id = none from nothing]
    rfl
  have steps : StepsAlone terms ref .working (.alive .resting order) (.working ref, ledger)
      (.none, (ranked.registerOrder ref).placeEntry (ledger.heap ref).id (some (ranked.entryOf ref))
        timestamp) := by
    refine rest_steps rfl rfl rfl ?_ ?_ rfl (.rest left)
    · show (ranked.registerOrder ref).owner _ = _
      rw [owner, Function.update_self]
    · intro id different
      show (ranked.registerOrder ref).owner id = _
      rw [owner, Function.update_of_ne different]
  exact steps.livesOn inv nonzero lives

private theorem livesOn_startAmend {requestTime now requestTag : Nat} {marked : Ledger} (inv : ledger.Represents .none)
    (registered : ledger.Registered ref) (permitted : (terms.permit env).startAmend ledger ref)
    (isMarked : marked = ledger.updateOrder ref (Order.touch .pendingReplace now requestTag))
    (nonzero : id ≠ 0) (lives : ledger.Lives .none id life) :
    LivesOn terms id (.none, ledger) (.amending ref,
      marked.publish env fun slot => slot.writeReplacePending (marked.heap ref) requestTime) life := by
  let order := (ledger.heap ref).touch .pendingReplace now requestTag
  have self : marked.heap ref = order := by
    rw [isMarked]
    exact updateOrder_heap_self _
  have steps : StepsAlone terms ref .resting (.alive .amending order) (.none, ledger)
      (.amending ref, marked.publish env fun slot => slot.writeReplacePending (marked.heap ref)
        requestTime) := by
    rw [self, isMarked]
    exact mark_steps registered rfl rfl rfl rfl rfl rfl (by rintro ⟨⟩) (.startAmend permitted)
  exact steps.livesOn inv nonzero lives

private theorem livesOn_replace {requestTime : Nat} {newPrice newQty : Int} {replaced : Ledger}
    (inv : ledger.Represents (.amending ref))
    (permitted : (terms.permit env).replace ledger ref newPrice newQty)
    (isReplaced : replaced = ledger.updateOrder ref (Order.replace newPrice newQty))
    (nonzero : id ≠ 0) (lives : ledger.Lives (.amending ref) id life) :
    LivesOn terms id (.amending ref, ledger) (.replaced ref (decide (newQty ≤ (ledger.heap ref).cumQuantity)),
      replaced.publish env fun slot => slot.writeModify (replaced.heap ref) newPrice newQty requestTime) life := by
  let order := (ledger.heap ref).replace newPrice newQty
  have self : replaced.heap ref = order := by
    rw [isReplaced]
    exact updateOrder_heap_self _
  have held : ∀ filled, (Hand.replaced ref filled).held = some (.replaced filled, ref) := by
    intro filled
    cases filled <;> rfl
  have steps : StepsAlone terms ref .amending
      (.alive (.replaced (decide (newQty ≤ (ledger.heap ref).cumQuantity))) order)
      (.amending ref, ledger) (.replaced ref (decide (newQty ≤ (ledger.heap ref).cumQuantity)),
        replaced.publish env fun slot =>
          slot.writeModify (replaced.heap ref) newPrice newQty requestTime) := by
    rw [self, isReplaced]
    exact .of_hand rfl (held _) (by unfold Stage.replaced; split <;> rintro ⟨⟩) rfl rfl rfl rfl rfl
      (.replace permitted)
  exact steps.livesOn inv nonzero lives

private theorem livesOn_cancelAmended {requestTime : Nat} (inv : ledger.Represents hand)
    (unrestable : hand = .emptied ref ∨ hand = .amended ref ∧
      0 < (ledger.heap ref).leavesQuantity ∧ (ledger.heap ref).price = nullPrice)
    (nonzero : id ≠ 0) (lives : ledger.Lives hand id life) :
    LivesOn terms id (hand, ledger) (.closing ref,
      ledger.publish env fun slot => slot.writeCancel (ledger.heap ref) requestTime) life := by
  obtain ⟨stage, held, closes⟩ : ∃ stage, hand.held = some (stage, ref) ∧
      (stage = .emptied ∨ stage = .amended ∧ 0 < (ledger.heap ref).leavesQuantity ∧
        (ledger.heap ref).price = nullPrice) := by
    rcases unrestable with rfl | ⟨rfl, left⟩
    · exact ⟨_, rfl, .inl rfl⟩
    · exact ⟨_, rfl, .inr ⟨rfl, left⟩⟩
  have steps : StepsAlone terms ref stage (.alive .closing (ledger.heap ref)) (hand, ledger)
      (.closing ref, ledger.publish env fun slot => slot.writeCancel (ledger.heap ref) requestTime) :=
    .of_hand held rfl (by rintro ⟨⟩) (Function.update_eq_self ref _).symm rfl rfl rfl rfl
      (.cancelAmended closes)
  exact steps.livesOn inv nonzero lives

private theorem livesOn_amendRests {timestamp priority : Nat} {globals : Globals} {joined : List Nat}
    {ranked : Ledger} (inv : ledger.Represents hand) (held : hand = .amended ref ∨ hand = .closing ref)
    (left : 0 < (ledger.heap ref).leavesQuantity)
    (isRanked : ranked = { ledger with globals, joins := ledger.joins ++ joined }.updateOrder ref
      (Order.withPriority priority))
    (permitted : (terms.permit env).amendRests ledger ref)
    (nonzero : id ≠ 0) (lives : ledger.Lives hand id life) :
    LivesOn terms id (hand, ledger)
      (.none, ranked.placeEntry (ledger.heap ref).id (some (ranked.entryOf ref)) timestamp) life := by
  obtain ⟨stage, isHeld, isResting, stages⟩ := amended_held held
  have inside := inv.indexed.resting_registered isResting
  have steps : StepsAlone terms ref stage (.alive .resting ((ledger.heap ref).withPriority priority))
      (hand, ledger)
      (.none, ranked.placeEntry (ledger.heap ref).id (some (ranked.entryOf ref)) timestamp) := by
    rw [isRanked]
    exact rest_steps isHeld rfl rfl inside (fun _ _ => rfl) rfl (.amendRests stages left permitted)
  exact steps.livesOn inv nonzero lives

private theorem livesOn_amendGone {timestamp priority : Nat} {globals : Globals} {joined : List Nat}
    {ranked : Ledger} (inv : ledger.Represents hand) (held : hand = .amended ref ∨ hand = .closing ref)
    (filled : (ledger.heap ref).leavesQuantity = 0)
    (isRanked : ranked = { ledger with globals, joins := ledger.joins ++ joined }.updateOrder ref
      (Order.withPriority priority))
    (nonzero : id ≠ 0) (lives : ledger.Lives hand id life) :
    LivesOn terms id (hand, ledger) (.none,
      ((ranked.placeEntry (ledger.heap ref).id none timestamp).unregisterOrder ref).freeOrder ref) life := by
  obtain ⟨stage, isHeld, isResting, stages⟩ := amended_held held
  have inside := inv.indexed.resting_registered isResting
  have self : ranked.heap ref = (ledger.heap ref).withPriority priority := by
    rw [isRanked]
    exact updateOrder_heap_self _
  let gone := ((ranked.placeEntry (ledger.heap ref).id none timestamp).unregisterOrder ref).freeOrder ref
  have owner : gone.owner = Function.update ledger.owner (ledger.heap ref).id none := by
    show Function.update ranked.owner (ranked.heap ref).id none = _
    rw [self, isRanked]
    rfl
  have heap : ranked.heap =
      Function.update ledger.heap ref ((ledger.heap ref).withPriority priority) := by
    rw [isRanked]
    rfl
  have quiet : ranked.responses = ledger.responses := by
    rw [isRanked]
    rfl
  have steps : StepsAlone terms ref stage .gone (hand, ledger) (.none, gone) := {
    alive := .inl isHeld
    step := by
      show LifeStep terms _ (_, ranked.reports _)
      unfold Ledger.reports
      rw [quiet]
      exact .amendGone stages filled
    lives := by
      intro _
      refine ⟨?_, ?_, by rintro _ ⟨⟩⟩
      · show ranked.reports _ ≠ []
        unfold Ledger.reports
        rw [quiet]
        exact (owned_iff_reports.mp (inv.indexed.registered_owned inside)).2
      · show gone.owner (ledger.heap ref).id = none
        rw [owner, Function.update_self]
    heap := ⟨_, heap, rfl⟩
    owner := fun id different => by
      show gone.owner id = ledger.owner id
      rw [owner, Function.update_of_ne different]
    responses := .inl quiet
    hands := by
      refine .inr ⟨fun other inHand => ?_, by rintro _ ⟨⟩⟩
      rw [show hand.order = some ref from Hand.order_of_held isHeld] at inHand
      exact (Option.some.inj inHand).symm }
  exact steps.livesOn inv nonzero lives

private theorem livesOn_startCancel {requestTime requestTag : Nat} {marked : Ledger} (inv : ledger.Represents .none)
    (registered : ledger.Registered ref) (permitted : (terms.permit env).cancel ledger ref)
    (isMarked : marked = ledger.updateOrder ref
      (Order.touch .pendingCancel (ledger.heap ref).lastUpdateTime requestTag))
    (nonzero : id ≠ 0) (lives : ledger.Lives .none id life) :
    LivesOn terms id (.none, ledger) (.cancelling ref,
      marked.publish env fun slot => slot.writeCancelPending (marked.heap ref) requestTime) life := by
  let order := (ledger.heap ref).touch .pendingCancel (ledger.heap ref).lastUpdateTime requestTag
  have self : marked.heap ref = order := by
    rw [isMarked]
    exact updateOrder_heap_self _
  have steps : StepsAlone terms ref .resting (.alive .cancelling order) (.none, ledger)
      (.cancelling ref, marked.publish env fun slot => slot.writeCancelPending (marked.heap ref)
        requestTime) := by
    rw [self, isMarked]
    exact mark_steps registered rfl rfl rfl rfl rfl rfl (by rintro ⟨⟩) (.startCancel permitted)
  exact steps.livesOn inv nonzero lives

end Requests

/-- Under every order number an effect is a step in the life behind it, or none. -/
theorem Micro.livesOn {terms : Terms} {env : Environment} {before after : Hand × Ledger} {id : Nat}
    {life : Life} (step : Micro env (terms.permit env) before after)
    (inv : before.2.Represents before.1) (nonzero : id ≠ 0) (lives : before.2.Lives before.1 id life) :
    LivesOn terms id before after life := by
  cases step with
  | sweep swept => exact swept.livesOn inv nonzero lives
  | reject permitted => exact livesOn_reject lives nonzero rfl rfl rfl rfl
  | touch => exact livesOn_touch lives
  | accept unused numbered later drawn clientFree named orderFree whole unfilled unpriced permitted =>
      exact livesOn_accept inv unused numbered named whole unfilled unpriced permitted lives nonzero
  | @ack ledger ref requestTime =>
      have steps : StepsAlone terms ref .pending (.alive .working (ledger.heap ref)) (.pending ref, ledger)
          (.working ref, ledger.publish env fun slot => slot.writeAck (ledger.heap ref) requestTime) :=
        .of_hand rfl rfl (by rintro ⟨⟩) (Function.update_eq_self ref _).symm rfl rfl rfl rfl .ack
      exact steps.livesOn inv nonzero lives
  | @refuse ledger ref permitted =>
      have steps : StepsAlone terms ref .pending .turnedAway (.pending ref, ledger)
          (.refused ref, ledger.freeOrder ref) := {
        alive := .inl rfl
        step := .refuse permitted
        lives := fun pending => ⟨(owned_iff_reports.mp (inv.indexed.fresh_owned rfl)).2,
          ⟨inv.indexed.fresh_unregistered rfl, by rintro _ ⟨⟩⟩, .inr ⟨ref, rfl, rfl, pending rfl⟩⟩
        heap := ⟨ledger.heap ref, (Function.update_eq_self ref _).symm, rfl⟩
        owner := fun _ _ => rfl
        responses := .inl rfl
        hands := .inr ⟨by rintro _ ⟨⟩; rfl, by rintro _ ⟨⟩; rfl⟩ }
      exact steps.livesOn inv nonzero lives
  | rejectRefused permitted => exact livesOn_rejectRefused lives nonzero
  | @cancelHand ledger ref requestTime unrestable unfinished =>
      have steps : StepsAlone terms ref .working (.alive .done (ledger.heap ref)) (.working ref, ledger)
          (.done ref, ledger.publish env fun slot => slot.writeCancel (ledger.heap ref) requestTime) :=
        .of_hand rfl rfl (by rintro ⟨⟩) (Function.update_eq_self ref _).symm rfl rfl rfl rfl
          (.cancelHand unrestable unfinished)
      exact steps.livesOn inv nonzero lives
  | dropDone => exact (drop_steps inv rfl rfl .dropDone).livesOn inv nonzero lives
  | dropFilled filled traded =>
      exact (drop_steps inv rfl rfl (.dropFilled filled traded)).livesOn inv nonzero lives
  | rest later drawn left restable clear isRanked permitted =>
      exact livesOn_rest inv left isRanked nonzero lives
  | startAmend registered permitted isMarked =>
      exact livesOn_startAmend inv registered permitted isMarked nonzero lives
  | @abortAmend ledger ref permitted =>
      have inside := inv.indexed.resting_registered (show (Hand.amending ref).resting = some ref from rfl)
      have steps : StepsAlone terms ref .amending (.alive .resting (ledger.heap ref)) (.amending ref, ledger)
          (.none, ledger) :=
        rest_steps rfl (Function.update_eq_self ref _).symm rfl inside (fun _ _ => rfl) rfl
          (.abortAmend permitted)
      exact steps.livesOn inv nonzero lives
  | replace permitted isReplaced => exact livesOn_replace inv permitted isReplaced nonzero lives
  | cancelAmended unrestable => exact livesOn_cancelAmended inv unrestable nonzero lives
  | amendRests held later left clear isRanked place permitted =>
      exact livesOn_amendRests inv held left isRanked permitted nonzero lives
  | amendGone held later filled mine isRanked => exact livesOn_amendGone inv held filled isRanked nonzero lives
  | startCancel registered permitted isMarked =>
      exact livesOn_startCancel inv registered permitted isMarked nonzero lives
  | @finishCancel ledger ref timestamp requestTime =>
      refine (Sweep.cancelOrder_steps (.inl rfl) (.inr rfl) ⟨?_, by rintro _ ⟨⟩⟩
        (.inr ⟨by rintro _ ⟨⟩; rfl, by rintro _ ⟨⟩⟩)).livesOn inv nonzero lives
      rw [Sweep.cancelOrder_owner, Function.update_self]
  | @addPhantom ledger order timestamp absent foreign numbered positive clear permitted =>
      exact livesOn_phantom inv (owner_eq_none_of_not_owned inv foreign) (by rintro _ ⟨⟩; rfl) lives
  | resizePhantom rests phantom positive within ranked =>
      exact livesOn_phantom inv phantom (by rintro _ ⟨⟩; rfl) lives
  | movePhantom rests phantom positive sameId sameSide permitted =>
      exact livesOn_phantom inv phantom (by rintro _ ⟨⟩; exact sameId) lives
  | dropPhantom rests phantom => exact livesOn_phantom inv phantom (by rintro _ ⟨⟩) lives
  | clearMD => exact .quiet lives rfl rfl rfl

theorem Micros.livesOn {terms : Terms} {env : Environment} {before after : Hand × Ledger} {id : Nat}
    {life : Life} (run : Micros env (terms.permit env) before after)
    (inv : before.2.Represents before.1) (nonzero : id ≠ 0) (lives : before.2.Lives before.1 id life) :
    LivesOn terms id before after life := by
  induction run with
  | refl => exact ⟨life, lives, .refl⟩
  | tail earlier step ih =>
      obtain ⟨between, livesBetween, path⟩ := ih
      obtain ⟨last, livesLast, rest⟩ := step.livesOn (Micros.represents earlier inv) nonzero livesBetween
      exact ⟨last, livesLast, path.trans rest⟩

end SlickSim
