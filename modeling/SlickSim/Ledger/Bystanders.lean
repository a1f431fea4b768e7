import SlickSim.Ledger.Amendments
import SlickSim.Ledger.Lives

/-!
# Orders a request does not name

What matching for another order does to a resting order: fills, each with its report,
and perhaps one cancellation that prevents a self match. An amendment and a cancel do
nothing else to the orders they do not name.
-/

set_option autoImplicit false

namespace SlickSim

/-- The fill reports on a resting order, and what the fills made of it. -/
inductive Order.FilledBy (order : Order) : List OrderResponse → Order → Prop
  | unfilled : FilledBy order [] order
  | fill {reports : List OrderResponse} {between : Order} {slot : OrderResponse} {qty : Int} {timestamp : Nat}
      (earlier : FilledBy order reports between) (positive : 0 < qty)
      (within : qty ≤ between.leavesQuantity) :
      FilledBy order
        (reports ++ [slot.writeExecution (between.execute between.price qty timestamp) false])
        (between.execute between.price qty timestamp)

namespace Ledger

/-- The order of an id is not touched and not reported. -/
structure LeavesAlone (other id : Nat) (before after : Ledger) : Prop where
  heap : after.heap other = before.heap other
  owner : after.owner id = before.owner id
  reports : after.reports id = before.reports id

namespace LeavesAlone

variable {other id : Nat} {first second third : Ledger}

theorem refl (ledger : Ledger) : ledger.LeavesAlone other id ledger :=
  ⟨rfl, rfl, rfl⟩

theorem trans (left : first.LeavesAlone other id second) (right : second.LeavesAlone other id third) :
    first.LeavesAlone other id third :=
  ⟨right.heap.trans left.heap, right.owner.trans left.owner, right.reports.trans left.reports⟩

theorem updateOrder {ledger : Ledger} {ref : Nat} {change : Order → Order} (apart : other ≠ ref) :
    ledger.LeavesAlone other id (ledger.updateOrder ref change) :=
  ⟨Function.update_of_ne apart .., rfl, rfl⟩

theorem publish {ledger : Ledger} {env : Environment} {write : OrderResponse → OrderResponse}
    (elsewhere : ∀ slot, (write slot).orderNum ≠ id) :
    ledger.LeavesAlone other id (ledger.publish env write) :=
  ⟨rfl, rfl, reports_append_other rfl (elsewhere _)⟩

end LeavesAlone

/-- What matching has made of a resting order that is not in hand. -/
inductive Served (other : Nat) (start now : Ledger) : Prop
  | filled {told : List OrderResponse}
      (reports : now.reports (start.heap other).id = start.reports (start.heap other).id ++ told)
      (fills : (start.heap other).FilledBy told (now.heap other))
      (stays : now.owner (start.heap other).id = some other ∨
        now.owner (start.heap other).id = none ∧ (now.heap other).leavesQuantity = 0)
  | cancelled {told : List OrderResponse} {between : Order} {slot : OrderResponse} {requestTime : Nat}
      (reports : now.reports (start.heap other).id = start.reports (start.heap other).id ++
        (told ++ [slot.writeCancel between.withoutLeaves requestTime]))
      (fills : (start.heap other).FilledBy told between)
      (gone : now.owner (start.heap other).id = none)

namespace Served

variable {other : Nat} {start now next : Ledger}

theorem begin (inside : start.Registered other) : Served other start start :=
  .filled (List.append_nil _).symm .unfilled (.inl inside)

theorem leavesAlone (served : Served other start now)
    (alone : now.LeavesAlone other (start.heap other).id next) : Served other start next := by
  cases served with
  | filled reports fills stays =>
      refine .filled (alone.reports.trans reports) (alone.heap ▸ fills) ?_
      rw [alone.owner, alone.heap]
      exact stays
  | cancelled reports fills gone =>
      exact .cancelled (alone.reports.trans reports) fills (alone.owner.trans gone)

theorem since {first : Ledger} (alone : first.LeavesAlone other (first.heap other).id start)
    (served : Served other start now) : Served other first now := by
  cases served with
  | filled reports fills stays =>
      rw [alone.heap] at reports fills stays
      exact .filled (reports.trans (congrArg (· ++ _) alone.reports)) fills stays
  | cancelled reports fills gone =>
      rw [alone.heap] at reports fills gone
      exact .cancelled (reports.trans (congrArg (· ++ _) alone.reports)) fills gone

theorem owner (served : Served other start now) {found : Nat}
    (inside : now.owner (start.heap other).id = some found) : found = other := by
  cases served with
  | filled _ _ stays =>
      rcases stays with stays | ⟨gone, -⟩
      · exact Option.some.inj (inside.symm.trans stays)
      · rw [gone] at inside
        cases inside
  | cancelled _ _ gone =>
      rw [gone] at inside
      cases inside

/-- An order that is still in the maps was only filled so far. -/
theorem fills_of_owner (served : Served other start now)
    (inside : now.owner (start.heap other).id = some other) :
    ∃ told, now.reports (start.heap other).id = start.reports (start.heap other).id ++ told ∧
      (start.heap other).FilledBy told (now.heap other) := by
  cases served with
  | filled reports fills _ => exact ⟨_, reports, fills⟩
  | cancelled _ _ gone =>
      rw [gone] at inside
      cases inside

theorem hit (served : Served other start now) (inside : now.owner (start.heap other).id = some other)
    (sameId : (now.heap other).id = (start.heap other).id) {slot : OrderResponse} {qty : Int} {timestamp : Nat}
    {order : Order} (isOrder : order = (now.heap other).execute (now.heap other).price qty timestamp)
    (published : next.responses = now.responses ++ [slot.writeExecution order false])
    (heap : next.heap other = order) (positive : 0 < qty) (within : qty ≤ (now.heap other).leavesQuantity)
    (stays : next.owner (start.heap other).id = some other ∨
      next.owner (start.heap other).id = none ∧ (next.heap other).leavesQuantity = 0) :
    Served other start next := by
  obtain ⟨told, reports, fills⟩ := served.fills_of_owner inside
  have numbered : (slot.writeExecution order false).orderNum = (start.heap other).id := by
    rw [isOrder]
    exact sameId
  have allReports : next.reports (start.heap other).id = start.reports (start.heap other).id ++
      (told ++ [slot.writeExecution order false]) := by
    rw [reports_append_self published numbered, reports, List.append_assoc]
  refine .filled allReports ?_ stays
  rw [heap, isOrder]
  exact .fill fills positive within

end Served

variable {env : Environment} {hand : Hand} {side : BookSide} {other ref : Nat} {start now next : Ledger}

theorem Served.sweep (served : Served other start now) (swept : Sweep env hand side now next)
    (inv : now.Represents hand) (sameId : (now.heap other).id = (start.heap other).id)
    (aggressor : ∀ ref, hand.aggressor = some ref →
      other ≠ ref ∧ (now.heap ref).id ≠ (start.heap other).id) :
    Served other start next := by
  -- A fill or a cancellation of an order of another number.
  have elsewhere : ∀ {resting : BookOrder} {ref : Nat}, now.owner resting.orderId = some ref → ref ≠ other →
      (now.heap ref).id ≠ (start.heap other).id := by
    intro resting ref ours different same
    have inside := inv.indexed.registered ours
    have inside : now.owner (now.heap ref).id = some ref := inside
    rw [same] at inside
    exact different (served.owner inside)
  cases swept with
  | tick later => exact served.leavesAlone ⟨rfl, rfl, rfl⟩
  | hitPhantom rests swept phantom positive within =>
      rw [setEntry_phantom (fun _ found => inv.indexed.entry_id found) ?_ phantom]
      · exact served.leavesAlone ⟨rfl, rfl, rfl⟩
      · intro order left
        obtain ⟨-, rfl⟩ := afterExecution_eq_some left
        rfl
  | @hitPartly resting ref qty timestamp rests swept ours apart positive within =>
      let order := (now.heap ref).execute (now.heap ref).price qty timestamp
      have self : (now.updateOrder ref fun order => order.execute order.price qty timestamp).heap ref =
        order := updateOrder_heap_self _
      have published : (now.fillPartly env ref resting qty timestamp).responses = now.responses ++
          [(env.slot now.responses.length).writeExecution order false] := by
        rw [← self]
        rfl
      by_cases same : ref = other
      · subst same
        obtain ⟨inside, isEntry⟩ := Sweep.resting_is inv rests ours apart
        have inside : now.owner (start.heap ref).id = some ref := sameId ▸ inside
        refine served.hit inside sameId rfl published self positive ?_ (.inl inside)
        rw [isEntry] at within
        exact Int.le_of_lt within
      · exact served.leavesAlone ⟨Function.update_of_ne (fun equal => same equal.symm) .., rfl,
          reports_append_other published (elsewhere ours same)⟩
  | @hitFully resting ref timestamp rests swept ours apart =>
      let order := (now.heap ref).execute (now.heap ref).price resting.quantity timestamp
      have self : (now.updateOrder ref fun order =>
        order.execute order.price resting.quantity timestamp).heap ref = order := updateOrder_heap_self _
      have published : (now.fillFully env ref resting timestamp).responses = now.responses ++
          [(env.slot now.responses.length).writeExecution order false] := by
        rw [← self]
        rfl
      have owner : (now.fillFully env ref resting timestamp).owner =
          Function.update now.owner (now.heap ref).id none := by
        show Function.update now.owner
          ((now.updateOrder ref fun order => order.execute order.price resting.quantity timestamp).heap ref).id
            none = _
        rw [self]
        rfl
      by_cases same : ref = other
      · subst same
        obtain ⟨inside, isEntry⟩ := Sweep.resting_is inv rests ours apart
        have inside : now.owner (start.heap ref).id = some ref := sameId ▸ inside
        have isAll : resting.quantity = (now.heap ref).leavesQuantity := by
          rw [isEntry]
          rfl
        refine served.hit inside sameId rfl published self (inv.agrees.positive rests) (Int.le_of_eq isAll)
          (.inr ⟨?_, ?_⟩)
        · rw [owner, sameId, Function.update_self]
        · rw [show (now.fillFully env ref resting timestamp).heap ref = order from self]
          show (now.heap ref).leavesQuantity - resting.quantity = 0
          omega
      · refine served.leavesAlone ⟨Function.update_of_ne (fun equal => same equal.symm) .., ?_,
          reports_append_other published (elsewhere ours same)⟩
        rw [owner, Function.update_of_ne (elsewhere ours same).symm]
  | @cancelOwn ref timestamp requestTime resting rests swept ours apart =>
      have self : (now.updateOrder ref Order.withoutLeaves).heap ref = (now.heap ref).withoutLeaves :=
        updateOrder_heap_self _
      have published : (now.cancelOrder env ref timestamp requestTime).responses = now.responses ++
          [(env.slot now.responses.length).writeCancel (now.heap ref).withoutLeaves requestTime] := by
        rw [← self]
        rfl
      by_cases same : ref = other
      · subst same
        obtain ⟨inside, -⟩ := Sweep.resting_is inv rests ours apart
        have inside : now.owner (start.heap ref).id = some ref := sameId ▸ inside
        obtain ⟨told, reports, fills⟩ := served.fills_of_owner inside
        have allReports : (now.cancelOrder env ref timestamp requestTime).reports (start.heap ref).id =
            start.reports (start.heap ref).id ++ (told ++ [(env.slot now.responses.length).writeCancel
              (now.heap ref).withoutLeaves requestTime]) := by
          rw [reports_append_self published sameId, reports, List.append_assoc]
        refine .cancelled allReports fills ?_
        rw [Sweep.cancelOrder_owner, sameId, Function.update_self]
      · refine served.leavesAlone ⟨Function.update_of_ne (fun equal => same equal.symm) .., ?_,
          reports_append_other published (elsewhere ours same)⟩
        rw [Sweep.cancelOrder_owner, Function.update_of_ne (elsewhere ours same).symm]
  | @aggress ref timestamp price qty held positive within =>
      obtain ⟨different, elsewhere⟩ := aggressor ref held
      exact served.leavesAlone ((LeavesAlone.updateOrder different).trans (.publish fun _ => elsewhere))

/-- A sweep for an order leaves another one filled or cancelled, or alone. -/
theorem Served.sweeps (run : Sweeps env hand side start now) (inv : start.Represents hand)
    (inside : start.Registered other)
    (aggressor : ∀ ref, hand.aggressor = some ref →
      other ≠ ref ∧ (start.heap ref).id ≠ (start.heap other).id) : Served other start now := by
  induction run with
  | refl => exact .begin inside
  | tail earlier swept ih =>
      have frame := Sweeps.takenFrom earlier inv
      refine ih.sweep swept (Sweeps.represents earlier inv) (frame.terms other).id ?_
      intro ref held
      obtain ⟨different, elsewhere⟩ := aggressor ref held
      rw [(frame.terms ref).id]
      exact ⟨different, elsewhere⟩

/-! ## Requests -/

section Requests

variable {ledger : Ledger} {id : Nat}

theorem LeavesAlone.touchOrder (apart : other ≠ ref) :
    ledger.LeavesAlone other id (ledger.touchOrder env ref) :=
  ⟨Function.update_of_ne apart .., rfl, rfl⟩

theorem LeavesAlone.beginAmend {requestTag requestTime : Nat} (apart : other ≠ ref)
    (elsewhere : (ledger.heap ref).id ≠ id) :
    ledger.LeavesAlone other id (ledger.beginAmend env ref requestTag requestTime) := by
  refine ⟨Function.update_of_ne apart .., rfl, reports_append_other rfl ?_⟩
  show (Function.update ledger.heap ref _ ref).id ≠ id
  rw [Function.update_self]
  exact elsewhere

theorem LeavesAlone.followOrder {timestamp : Nat} (elsewhere : (ledger.heap ref).id ≠ id) :
    ledger.LeavesAlone other id (ledger.followOrder ref timestamp) := by
  unfold Ledger.followOrder
  split
  · exact ⟨rfl, Function.update_of_ne elsewhere.symm .., rfl⟩
  · exact ⟨rfl, rfl, rfl⟩

theorem LeavesAlone.settleAmend {requestTime : Nat} {closes requeue : Bool} (apart : other ≠ ref)
    (elsewhere : (ledger.heap ref).id ≠ id) :
    ledger.LeavesAlone other id (ledger.settleAmend env ref requestTime closes requeue) := by
  unfold Ledger.settleAmend
  dsimp only
  have closed : ledger.LeavesAlone other id (if closes then ledger.reportCancel env ref requestTime else ledger) ∧
      ((if closes then ledger.reportCancel env ref requestTime else ledger).heap ref).id ≠ id := by
    split
    · exact ⟨.publish fun _ => elsewhere, elsewhere⟩
    · exact ⟨.refl _, elsewhere⟩
  generalize (if closes then ledger.reportCancel env ref requestTime else ledger) = closedLedger at closed ⊢
  have touched := closed.1.trans (@LeavesAlone.touchOrder env other ref _ _ apart)
  have touchedId : ((closedLedger.touchOrder env ref).heap ref).id ≠ id := by
    show (Function.update closedLedger.heap ref _ ref).id ≠ id
    rw [Function.update_self]
    exact closed.2
  generalize closedLedger.touchOrder env ref = touchedLedger at touched touchedId ⊢
  split
  · refine (touched.trans ?_).trans (LeavesAlone.followOrder ?_)
    · exact ⟨Function.update_of_ne apart .., rfl, rfl⟩
    · show (Function.update touchedLedger.heap ref _ ref).id ≠ id
      rw [Function.update_self]
      exact touchedId
  · exact touched.trans (.followOrder touchedId)

end Requests

end Ledger

namespace MatchState

variable {β : Type} [OrderBookL3 β] {state : MatchState β} {env : Environment} {config : SymbolConfig}
  {ref other : Nat}

open Ledger (LeavesAlone Served)

theorem registered_apart_fresh (inv : state.ledger.Represents (.pending ref)) (inside : state.ledger.Registered other) :
    other ≠ ref ∧ (state.order ref).id ≠ (state.order other).id := by
  have unregistered : state.ledger.owner (state.order ref).id = none := inv.indexed.fresh_unregistered rfl
  have inside : state.ledger.owner (state.order other).id = some other := inside
  have different : (state.order ref).id ≠ (state.order other).id := by
    intro same
    rw [← same, unregistered] at inside
    cases inside
  exact ⟨fun same => different (congrArg (fun ref => (state.order ref).id) same.symm), different⟩

/-- Adding a new order does nothing to another order but by matching. -/
theorem addOrder_served (env : Environment) (config : SymbolConfig) (requestTime : Nat)
    (inv : state.ledger.Represents (.pending ref)) (isNew : (state.order ref).status = .pendingNew)
    (inside : state.ledger.Registered other) :
    Served other state.ledger (state.addOrder env config ref requestTime).2.2.ledger := by
  obtain ⟨apart, elsewhere⟩ := registered_apart_fresh inv inside
  have freed : ∀ ledger : Ledger, ledger.LeavesAlone other (state.order other).id (ledger.freeOrder ref) :=
    fun _ => ⟨rfl, rfl, rfl⟩
  by_cases refuses : config.matchingEngine.Refuses state.book config.smpMode (state.order ref)
      (state.order ref).price (state.order ref).leavesQuantity
  · rw [addOrder_eq (MatchingEngine.matchOrder_new_refused config.matchingEngine env requestTime config.smpMode
      (state.order ref).createdTime isNew refuses), if_neg (by rintro ⟨⟨⟩, -⟩)]
    exact (Served.begin inside).leavesAlone (freed _)
  let acked := state.ledger.publish env fun slot => slot.writeAck (state.order ref) requestTime
  have alone : state.ledger.LeavesAlone other (state.order other).id acked := .publish fun _ => elsewhere
  have ackedInv : acked.Represents (.working ref) :=
    (show Micro env .all (.pending ref, state.ledger) (.working ref, acked) from .ack).represents inv
  obtain ⟨reason, summaries, between, matched, outcome⟩ := MatchingEngine.matchOrder_new
    config.matchingEngine env requestTime config.smpMode (state.order ref).createdTime
    (state.order ref).quantity inv isNew refuses rfl
  rw [addOrder_eq matched]
  dsimp only
  -- The order in hand has its number throughout, and goes to the book or back to the pool.
  suffices kept : Served other state.ledger between.ledger ∧ (between.order ref).id = (state.order ref).id ∧
      (0 < (between.order ref).leavesQuantity → (reason = .none ∧ (between.order ref).restsRemainder = true) →
        between.ledger.Represents (.working ref)) by
    obtain ⟨served, sameId, rests⟩ := kept
    split <;> rename_i stays
    · have betweenInv := rests stays.2.1 ⟨stays.1, stays.2.2⟩
      refine served.leavesAlone ?_
      have unregistered : between.ledger.owner (between.order ref).id = none :=
        betweenInv.indexed.fresh_unregistered rfl
      rw [show (between.onBook fun book => book.addOrder ref (between.order ref).createdTime 0 true).ledger = _ from
        OrderBook.addOrder_ledger true (fun stale => stale.1.false) unregistered
          (betweenInv.indexed.fresh_absent rfl) stays.2.1 rfl]
      have notMine : (state.order other).id ≠ (between.order ref).id := by
        rw [sameId]
        exact elsewhere.symm
      refine ⟨Function.update_of_ne apart .., ?_, rfl⟩
      show emplaceAt between.ledger.owner (Function.update between.ledger.heap ref _ ref).id ref _ = _
      rw [Function.update_self]
      exact (congrFun (Ledger.Indexed.emplaceAt_of_none unregistered) _).trans (Function.update_of_ne notMine ..)
    · exact served.leavesAlone (freed _)
  have heapIs : ∀ {ledger : Ledger}, between.ledger = ledger → between.order ref = ledger.heap ref :=
    fun same => congrArg (fun ledger => ledger.heap ref) same
  rcases outcome with ⟨finished, ledgerIs⟩ | ⟨rfl, -, ⟨negative, ledgerIs⟩ | ⟨-, swept, outcome⟩⟩
  · have same : between.order ref = state.order ref := heapIs ledgerIs
    rw [ledgerIs, same]
    refine ⟨(Served.begin inside).leavesAlone (alone.trans (.publish fun _ => elsewhere)), rfl, fun left fine => ?_⟩
    rcases finished with ⟨rfl, -⟩ | ⟨-, empty⟩
    · cases fine.1
    · omega
  · have same : between.order ref = state.order ref := heapIs ledgerIs
    rw [ledgerIs, same]
    exact ⟨(Served.begin inside).leavesAlone alone, rfl, fun left _ => by omega⟩
  · have frame := outcome.sweeps.takenFrom ackedInv
    have served : Served other state.ledger swept :=
      (Served.sweeps outcome.sweeps ackedInv inside (by rintro _ ⟨⟩; exact ⟨apart, elsewhere⟩)).since alone
    have sweptId : (swept.heap ref).id = (state.order ref).id := (frame.terms ref).id
    have reported := outcome.reported
    split at reported <;> rename_i unrestable
    · have same : between.order ref = swept.heap ref :=
        (heapIs reported : between.order ref = (swept.publish env _).heap ref)
      rw [same, reported]
      refine ⟨served.leavesAlone (.publish fun _ => ?_), sweptId, fun _ fine => ?_⟩
      · rw [OrderResponse.writeCancel_orderNum, sweptId]
        exact elsewhere
      · rw [unrestable.2] at fine
        cases fine.2
    · have same : between.order ref = swept.heap ref := heapIs reported
      rw [same, reported]
      exact ⟨served, sweptId, fun _ _ => outcome.sweeps.represents ackedInv⟩

end MatchState

namespace Exchange

variable {β : Type} [OrderBookL3 β] {exchange : Exchange β} {env : Environment} {config : SymbolConfig}
  {header : RequestHeader} {ref other : Nat}

open Ledger (LeavesAlone Served)

section Named

variable (listed : header.symbol = config.symbol) (inv : exchange.ledger.Represents .none)
  (inside : exchange.ledger.Registered other) (apart : other ≠ ref)

include inside apart in
theorem registered_apart (named : exchange.ledger.Registered ref) :
    (exchange.ledger.heap ref).id ≠ (exchange.ledger.heap other).id := by
  intro same
  have named : exchange.ledger.owner (exchange.ledger.heap ref).id = some ref := named
  rw [same, show exchange.ledger.owner (exchange.ledger.heap other).id = some other from inside] at named
  exact apart (Option.some.inj named)

include listed inv inside apart

/-- An amendment does nothing to another order but by matching. -/
theorem handleModifyOrderRequest_served {msg : ModifyOrderMessage}
    (selected : selectOrder exchange.book msg.clientOrderId msg.orderId = some ref) :
    Served other exchange.ledger (exchange.handleModifyOrderRequest env config header msg).ledger := by
  have named := selectOrder_registered inv selected
  have elsewhere := registered_apart inside apart named
  have begun : exchange.ledger.LeavesAlone other (exchange.ledger.heap other).id
      (exchange.ledger.beginAmend env ref header.requestTag header.timeStamp) := .beginAmend apart elsewhere
  by_cases refuses : exchange.RefusesAmend config ref msg.newPrice msg.newQty
  · rw [handleModifyOrderRequest_refused listed selected inv refuses]
    refine (Served.begin inside).leavesAlone (begun.trans ?_)
    have nonzero := (inv.indexed.registered_owned inside).1
    refine ⟨?_, rfl, Ledger.reports_append_other rfl nonzero.symm⟩
    show Function.update (Function.update (exchange.ledger.beginAmend env ref header.requestTag
      header.timeStamp).heap ref _) ref _ other = _
    rw [Function.update_of_ne apart, Function.update_of_ne apart]
  · obtain ⟨swept, sweeps, isAfter⟩ := handleModifyOrderRequest_amends env header listed selected inv refuses
    rw [isAfter]
    have replaced : exchange.ledger.LeavesAlone other (exchange.ledger.heap other).id
        (exchange.amendedLedger env header msg ref) := by
      refine begun.trans ⟨Function.update_of_ne apart .., rfl, Ledger.reports_append_other rfl ?_⟩
      show ((exchange.ledger.beginAmend env ref header.requestTag header.timeStamp).heap ref).id ≠ _
      rw [beginAmend_order]
      exact elsewhere
    have replacedId : ((exchange.amendedLedger env header msg ref).heap ref).id =
        (exchange.ledger.heap ref).id := by
      rw [amendedLedger_order]
      rfl
    have replacedInv : (exchange.amendedLedger env header msg ref).Represents (.amended ref) :=
      amendedLedger_represents header msg inv named
    have stillInside : (exchange.amendedLedger env header msg ref).Registered other := by
      show (exchange.amendedLedger env header msg ref).owner
        ((exchange.amendedLedger env header msg ref).heap other).id = some other
      rw [replaced.heap, replaced.owner]
      exact inside
    have served := Served.sweeps sweeps.sweeps replacedInv stillInside (by
      rintro _ ⟨⟩
      rw [replacedId, replaced.heap]
      exact ⟨apart, elsewhere⟩)
    refine (served.since replaced).leavesAlone (.settleAmend apart ?_)
    rw [((sweeps.sweeps.takenFrom replacedInv).terms ref).id, replacedId]
    exact elsewhere

theorem handleCancelOrderRequest_leavesAlone {msg : CancelOrderMessage}
    (selected : selectOrder exchange.book msg.clientOrderId msg.orderId = some ref) :
    exchange.ledger.LeavesAlone other (exchange.ledger.heap other).id
      (exchange.handleCancelOrderRequest env config header msg).ledger := by
  have named := selectOrder_registered inv selected
  have elsewhere := registered_apart inside apart named
  rw [(handleCancelOrderRequest_cancels listed selected inv
    (show Permit.all.cancel exchange.ledger ref from trivial)).1]
  have marked : exchange.ledger.LeavesAlone other (exchange.ledger.heap other).id
      (exchange.ledger.updateOrder ref (beginCancel header.requestTag)) := .updateOrder apart
  have markedId : ((exchange.ledger.updateOrder ref (beginCancel header.requestTag)).heap ref).id ≠
      (exchange.ledger.heap other).id := by
    rw [Ledger.updateOrder_heap_self]
    exact elsewhere
  unfold cancelledLedger
  dsimp only
  generalize exchange.ledger.updateOrder ref (beginCancel header.requestTag) = markedLedger at marked markedId ⊢
  have begun := marked.trans (@LeavesAlone.publish other (exchange.ledger.heap other).id markedLedger env
    (fun slot => slot.writeCancelPending (markedLedger.heap ref) header.timeStamp) fun _ => markedId)
  have touched := begun.trans (@LeavesAlone.touchOrder env other ref _ _ apart)
  have touchedId : (((markedLedger.publish env fun slot => slot.writeCancelPending (markedLedger.heap ref)
      header.timeStamp).touchOrder env ref).heap ref).id ≠ (exchange.ledger.heap other).id := by
    show (Function.update markedLedger.heap ref _ ref).id ≠ _
    rw [Function.update_self]
    exact markedId
  generalize (markedLedger.publish env fun slot => slot.writeCancelPending (markedLedger.heap ref)
    header.timeStamp).touchOrder env ref = touchedLedger at touched touchedId ⊢
  refine touched.trans ⟨Function.update_of_ne apart .., ?_, Ledger.reports_append_other rfl ?_⟩
  · rw [Sweep.cancelOrder_owner, Function.update_of_ne touchedId.symm]
  · show (Function.update touchedLedger.heap ref _ ref).id ≠ _
    rw [Function.update_self]
    exact touchedId

end Named

theorem acceptOrder_leavesAlone (inv : exchange.ledger.Represents .none) (inside : exchange.ledger.Registered other)
    (header : RequestHeader) (msg : AddOrderMessage) :
    exchange.ledger.LeavesAlone other (exchange.ledger.heap other).id
      (exchange.acceptOrder env config header msg).ledger := by
  have apart : other ≠ env.pool exchange.book.live := by
    rintro rfl
    exact env.pool_fresh _ (inv.indexed.live_iff.mpr (.inl inside))
  rw [acceptOrder_ledger]
  refine ⟨Function.update_of_ne apart .., rfl, Ledger.reports_append_other rfl ?_⟩
  show (exchange.newOrder env config header msg).id ≠ _
  rw [newOrder_id]
  exact (inv.indexed.owned_bound (inv.indexed.registered_owned inside)).ne'

theorem handleNewOrderRequest_served {msg : AddOrderMessage} (listed : header.symbol = config.symbol)
    (inv : exchange.ledger.Represents .none) (inside : exchange.ledger.Registered other)
    (admitted : exchange.ledger.byOrder (env.uuid exchange.book.globals.uuidDraws) = none)
    (free : ¬ exchange.ClientIdTaken msg.clientOrderId) :
    Served other exchange.ledger (exchange.handleNewOrderRequest env config header msg).ledger := by
  have alone := @acceptOrder_leavesAlone β _ exchange env config other inv inside header msg
  have accepts : Micro env .all (.none, exchange.ledger)
      (.pending (env.pool exchange.book.live), (exchange.acceptOrder env config header msg).ledger) :=
    acceptOrder_micro header msg (byClient_of_free free) admitted trivial
  have stillInside : (exchange.acceptOrder env config header msg).ledger.Registered other := by
    show (exchange.acceptOrder env config header msg).ledger.owner
      ((exchange.acceptOrder env config header msg).ledger.heap other).id = some other
    rw [alone.heap, alone.owner]
    exact inside
  have served := (MatchState.addOrder_served env config header.timeStamp (accepts.represents inv)
    (by rw [acceptOrder_order]; rfl) stillInside).since alone
  generalize added : (exchange.acceptOrder env config header msg).matching.addOrder env config
    (env.pool exchange.book.live) header.timeStamp = result at served
  obtain ⟨reason, summaries, after⟩ := result
  rw [handleNewOrderRequest_ledger listed free added]
  split
  · refine served.leavesAlone ?_
    rw [show (after.rejectNewOrderRequest env header msg reason).ledger = _ from
      MatchState.publishReject_ledger after fun _ _ => rfl]
    exact ⟨rfl, rfl, Ledger.reports_append_other rfl (inv.indexed.registered_owned inside).1.symm⟩
  · exact served

end Exchange

end SlickSim
