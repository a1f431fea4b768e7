import SlickSim.Exchange.Symbol

/-!
# What a match reports

Whatever the engines do, no order changes who it is, and each report is on the order
that matches or on one the maps held when the match began. An order of the second
kind is reported filled, or cancelled to prevent a self match.
-/

set_option autoImplicit false

namespace SlickSim

/-- What a report copies from an order, and the client self-match prevention goes by. -/
structure OrderIdentity where
  symbol : SymbolName
  userId : Name
  clientOrderId : Name
  orderId : Name
  id : Nat
  requestTag : Nat
  clientId : Int
deriving DecidableEq

def Order.identity (order : Order) : OrderIdentity :=
  { symbol := order.symbol, userId := order.userId, clientOrderId := order.clientOrderId
    orderId := order.orderId, id := order.id, requestTag := order.requestTag
    clientId := order.clientId }

/-- The report is on the order of this identity. -/
structure OrderResponse.IsOn (response : OrderResponse) (identity : OrderIdentity) : Prop where
  symbol : response.symbol = identity.symbol
  userId : response.userId = identity.userId
  clientOrderId : response.clientOrderId = identity.clientOrderId
  orderId : response.orderId = identity.orderId
  orderNum : response.orderNum = identity.id
  requestTag : response.requestTag = identity.requestTag
  report : response.responseType = .executionReport

theorem isSelfMatch_congr {incoming incoming' resting resting' : Order}
    (sameIncoming : incoming'.identity = incoming.identity)
    (sameResting : resting'.identity = resting.identity) :
    isSelfMatch incoming' (some resting') = isSelfMatch incoming (some resting) := by
  have left : incoming'.clientId = incoming.clientId := congrArg OrderIdentity.clientId sameIncoming
  have right : resting'.clientId = resting.clientId := congrArg OrderIdentity.clientId sameResting
  unfold isSelfMatch
  dsimp only
  rw [left, right]

theorem isSelfMatch_client {incoming resting : Order} (selfMatch : isSelfMatch incoming (some resting) = true) :
    incoming.clientId = resting.clientId ∧ resting.clientId ≠ -1 := by
  unfold isSelfMatch at selfMatch
  dsimp only at selfMatch
  split at selfMatch
  · cases selfMatch
  · rename_i known
    push Not at known
    exact ⟨of_decide_eq_true selfMatch, known.2⟩

namespace OrderBook

variable {β : Type} {who : Option Nat} {first second third : OrderBook β}

def Holds (book : OrderBook β) (ref : Nat) : Prop :=
  ∃ id, book.findOrder id = some ref

/-- Every order is who it was, and the maps may have gained one. -/
structure Keeps (who : Option Nat) (before after : OrderBook β) : Prop where
  identity : ∀ ref, (after.heap ref).identity = (before.heap ref).identity
  holds : ∀ {ref}, after.Holds ref → before.Holds ref ∨ who = some ref

namespace Keeps

theorem refl (book : OrderBook β) : book.Keeps who book :=
  ⟨fun _ => rfl, .inl⟩

theorem trans (left : first.Keeps who second) (right : second.Keeps who third) : first.Keeps who third where
  identity := fun ref => (right.identity ref).trans (left.identity ref)
  holds := by
    intro ref held
    rcases right.holds held with earlier | acts
    · exact left.holds earlier
    · exact .inr acts

/-- Nobody gains an entry. -/
theorem of_orders (identity : ∀ ref, (second.heap ref).identity = (first.heap ref).identity)
    (orders : ∀ {id ref}, second.findOrder id = some ref → first.findOrder id = some ref) :
    first.Keeps who second :=
  ⟨identity, fun ⟨id, found⟩ => .inl ⟨id, orders found⟩⟩

theorem of_eq (heap : second.heap = first.heap) (orders : second.orders = first.orders) :
    first.Keeps who second := by
  refine of_orders (fun ref => by rw [heap]) ?_
  intro id ref found
  unfold findOrder at found ⊢
  rwa [← orders]

theorem since (run : second.Keeps who third) (heap : second.heap = first.heap)
    (orders : second.orders = first.orders) : first.Keeps who third :=
  (of_eq heap orders).trans run

end Keeps

theorem updateOrder_keeps {book : OrderBook β} (ref : Nat) {change : Order → Order}
    (same : ∀ order : Order, (change order).identity = order.identity) :
    book.Keeps who (book.updateOrder ref change) := by
  refine .of_orders ?_ (fun found => found)
  intro other
  by_cases self : other = ref
  · rw [self]
    show (Function.update book.heap ref _ ref).identity = _
    rw [Function.update_self]
    exact same _
  · show (Function.update book.heap ref _ other).identity = _
    rw [Function.update_of_ne self]

theorem onOrderUpdate_keeps (book : OrderBook β) (update : OrderUpdate) :
    book.Keeps who (book.onOrderUpdate update) := by
  unfold onOrderUpdate
  split
  · exact .of_eq rfl rfl
  · split
    · exact updateOrder_keeps _ fun _ => rfl
    · exact .refl _

theorem absorb_keeps (book : OrderBook β) (result : L3Result β) : book.Keeps who (book.absorb result) := by
  have observed : ∀ (updates : List OrderUpdate) (start : OrderBook β),
      start.Keeps who (updates.foldl onOrderUpdate start) := by
    intro updates
    induction updates with
    | nil => exact fun start => .refl start
    | cons update rest ih => exact fun start => (onOrderUpdate_keeps start update).trans (ih _)
  unfold absorb
  dsimp only
  exact Keeps.since (observed ..) rfl rfl

theorem emplace_lookup {κ : Type} [DecidableEq κ] {map : AList (fun _ : κ => Nat)} {key other : κ}
    {value found : Nat} (inside : (emplace map key value).lookup other = some found) :
    map.lookup other = some found ∨ found = value := by
  unfold emplace at inside
  split at inside
  · exact .inl inside
  · by_cases same : other = key
    · rw [same, AList.lookup_insert] at inside
      exact .inr (Option.some.inj inside).symm
    · rw [AList.lookup_insert_ne same] at inside
      exact .inl inside

theorem registerOrder_keeps (book : OrderBook β) (ref : Nat) :
    book.Keeps (some ref) (book.registerOrder ref) := by
  refine ⟨fun _ => rfl, ?_⟩
  rintro other ⟨id, found⟩
  rcases emplace_lookup (show (emplace book.orders _ ref).lookup id = some other from found) with earlier | rfl
  · exact .inl ⟨id, earlier⟩
  · exact .inr rfl

theorem unregisterOrder_keeps (book : OrderBook β) (ref : Nat) : book.Keeps who (book.unregisterOrder ref) := by
  refine .of_orders (fun _ => rfl) ?_
  intro id other found
  have found : (book.orders.erase (book.heap ref).id).lookup id = some other := found
  by_cases same : id = (book.heap ref).id
  · rw [same, AList.lookup_erase] at found
    cases found
  · rwa [AList.lookup_erase_ne same] at found

theorem dropOrder_keeps (book : OrderBook β) (ref : Nat) : book.Keeps who (book.dropOrder ref) := by
  unfold dropOrder
  dsimp only
  split
  · exact (unregisterOrder_keeps book ref).trans (.of_eq rfl rfl)
  · exact .of_eq rfl rfl

variable [OrderBookL3 β] (book : OrderBook β) (ref id timestamp priority seqNum : Nat) (side : BookSide)
  (price qty : Int) (isLast : Bool)

theorem addL3Order_keeps :
    book.Keeps who (book.addL3Order id side price qty timestamp priority seqNum isLast) := by
  unfold addL3Order
  dsimp only
  exact Keeps.since (absorb_keeps ..) rfl rfl

theorem addBookOrder_keeps :
    book.Keeps who (book.addBookOrder id side price qty timestamp seqNum isLast) := by
  unfold addBookOrder
  dsimp only
  exact Keeps.since (addL3Order_keeps ..) rfl rfl

theorem deleteL3Order_keeps : book.Keeps who (book.deleteL3Order id timestamp seqNum isLast) := by
  unfold deleteL3Order
  dsimp only
  exact Keeps.since (absorb_keeps ..) rfl rfl

theorem modifyL3Order_keeps :
    book.Keeps who (book.modifyL3Order id price qty timestamp priority seqNum isLast) := by
  unfold modifyL3Order
  dsimp only
  exact Keeps.since (absorb_keeps ..) rfl rfl

theorem addOrder_keeps : book.Keeps (some ref) (book.addOrder ref timestamp seqNum isLast) := by
  unfold addOrder
  dsimp only
  have ranked : book.Keeps (some ref) (book.nextOrderPriority.updateOrder ref fun order =>
      { order with priority := book.nextOrderPriority.globals.nextPriority }) := by
    refine Keeps.since (updateOrder_keeps ref ?_) rfl rfl
    exact fun _ => rfl
  have entered := ranked.trans (registerOrder_keeps _ ref)
  refine entered.trans (Keeps.since (absorb_keeps ..) ?_ ?_)
  · rfl
  · rfl

theorem deleteOrder_keeps : book.Keeps who (book.deleteOrder ref timestamp seqNum isLast) := by
  unfold deleteOrder
  dsimp only
  split
  · exact (deleteL3Order_keeps ..).trans (unregisterOrder_keeps ..)
  · exact deleteL3Order_keeps ..

theorem modifyOrder_keeps : book.Keeps (some ref) (book.modifyOrder ref price qty timestamp seqNum isLast) := by
  have requeue : book.Keeps (some ref) (book.nextOrderPriority.updateOrder ref fun order =>
      { order with price := price, priority := book.nextOrderPriority.globals.nextPriority }) := by
    refine Keeps.since (updateOrder_keeps ref ?_) rfl rfl
    exact fun _ => rfl
  have finishes : ∀ (entered : OrderBook β) (gone : Prop) [Decidable gone] (id priority : Nat)
      (newPrice newQty : Int), book.Keeps (some ref) entered →
      book.Keeps (some ref) (if gone then (entered.modifyL3Order id newPrice newQty timestamp priority seqNum
        isLast).unregisterOrder ref else
          entered.modifyL3Order id newPrice newQty timestamp priority seqNum isLast) := by
    intro entered gone _ id priority newPrice newQty kept
    have modified := kept.trans
      (entered.modifyL3Order_keeps id timestamp priority seqNum newPrice newQty isLast)
    split
    · exact modified.trans (unregisterOrder_keeps ..)
    · exact modified
  unfold modifyOrder
  dsimp only
  apply finishes
  refine Keeps.trans ?_ (updateOrder_keeps ref ?_)
  · cases book.findOrder (book.heap ref).id with
    | none =>
        dsimp only
        split
        · exact requeue.trans (registerOrder_keeps ..)
        · exact requeue
    | some _ =>
        dsimp only
        split
        · exact requeue
        · exact .refl _
  · exact fun _ => rfl

theorem clearMDOrders_keeps : book.Keeps who book.clearMDOrders := by
  have rebuilt : ∀ (entries : List (Nat × Order)) (start : OrderBook β), start.Keeps who
      (entries.foldl (fun book entry => book.addL3Order entry.1 (toBookSide entry.2.side)
        entry.2.price entry.2.leavesQuantity entry.2.lastUpdateTime entry.2.priority 0 false) start) := by
    intro entries
    induction entries with
    | nil => exact fun start => .refl start
    | cons entry rest ih => exact fun start => (addL3Order_keeps ..).trans (ih _)
  have finishes : ∀ after : OrderBook β, book.Keeps who after →
      book.Keeps who { after with joins := book.joins } :=
    fun _ kept => kept.trans (.of_eq rfl rfl)
  unfold clearMDOrders
  dsimp only
  apply finishes
  refine Keeps.since (rebuilt ..) ?_ ?_
  · rfl
  · rfl

theorem executeOrder_keeps : book.Keeps who (book.executeOrder id qty timestamp seqNum isLast).2 := by
  unfold executeOrder
  split
  · exact .of_eq rfl rfl
  · cases book.findOrder id with
    | none =>
        dsimp only
        exact Keeps.since (absorb_keeps ..) rfl rfl
    | some ref =>
        dsimp only
        have booked : book.Keeps who (book.updateOrder ref fun order =>
            order.execute order.price qty timestamp) := updateOrder_keeps ref fun _ => rfl
        split
        · refine Keeps.trans (booked.trans (Keeps.since (absorb_keeps ..) ?_ ?_)) (unregisterOrder_keeps ..)
          · rfl
          · rfl
        · refine booked.trans (Keeps.since (absorb_keeps ..) ?_ ?_)
          · rfl
          · rfl

end OrderBook

namespace MatchState

variable {β : Type} {env : Environment} {who : Option Nat} {first second third : MatchState β}

/-- A report a match may publish, given the state it began in. -/
inductive Reports (who : Option Nat) (state : MatchState β) (response : OrderResponse) : Prop
  | own {ref : Nat} (acts : who = some ref) (on : response.IsOn (state.order ref).identity)
  | fill {ref : Nat} (held : state.book.Holds ref) (on : response.IsOn (state.order ref).identity)
      (trade : response.execType = .trade)
  | selfMatch {aggressor ref : Nat} (acts : who = some aggressor) (held : state.book.Holds ref)
      (on : response.IsOn (state.order ref).identity) (cancel : response.execType = .canceled)
      (mine : isSelfMatch (state.order aggressor) (some (state.order ref)) = true)

/-- One state comes from another by what a match may do. -/
structure Serves (who : Option Nat) (before after : MatchState β) : Prop where
  keeps : before.book.Keeps who after.book
  reports : ∃ told, after.responses = before.responses ++ told ∧
    ∀ response ∈ told, before.Reports who response

/-- The order matches, or the maps held it when the match began. -/
def Knows (who : Option Nat) (state : MatchState β) (ref : Nat) : Prop :=
  state.book.Holds ref ∨ who = some ref

namespace Serves

theorem refl (state : MatchState β) : state.Serves who state :=
  ⟨.refl _, [], (List.append_nil _).symm, by rintro _ ⟨⟩⟩

theorem identity (run : first.Serves who second) (ref : Nat) :
    (second.order ref).identity = (first.order ref).identity :=
  run.keeps.identity ref

theorem knows (run : first.Serves who second) {ref : Nat} (held : second.book.Holds ref) :
    first.Knows who ref :=
  run.keeps.holds held

theorem reported (run : first.Serves who second) {response : OrderResponse}
    (reports : second.Reports who response) : first.Reports who response := by
  cases reports with
  | own acts on => exact .own acts (run.identity _ ▸ on)
  | @fill ref held on trade =>
      rw [run.identity] at on
      rcases run.knows held with held | acts
      · exact .fill held on trade
      · exact .own acts on
  | @selfMatch aggressor ref acts held on cancel mine =>
      rw [run.identity] at on
      rw [isSelfMatch_congr (run.identity aggressor) (run.identity ref)] at mine
      rcases run.knows held with held | mineToo
      · exact .selfMatch acts held on cancel mine
      · exact .own mineToo on

theorem trans (left : first.Serves who second) (right : second.Serves who third) :
    first.Serves who third := by
  refine ⟨left.keeps.trans right.keeps, ?_⟩
  obtain ⟨told, isTold, reports⟩ := left.reports
  obtain ⟨later, isLater, laterReports⟩ := right.reports
  refine ⟨told ++ later, by rw [isLater, isTold, List.append_assoc], ?_⟩
  intro response member
  rcases List.mem_append.mp member with earlier | last
  · exact reports response earlier
  · exact left.reported (laterReports response last)

theorem of_book {state : MatchState β} {book : OrderBook β} (keeps : state.book.Keeps who book) :
    state.Serves who { state with book } :=
  ⟨keeps, [], (List.append_nil _).symm, by rintro _ ⟨⟩⟩

theorem onBook (run : first.Serves who second) {change : OrderBook β → OrderBook β}
    (keeps : second.book.Keeps who (change second.book)) : first.Serves who (second.onBook change) :=
  run.trans (of_book keeps)

theorem publish (run : first.Serves who second) {write : OrderResponse → OrderResponse}
    (reports : ∀ slot, first.Reports who (write slot)) : first.Serves who (second.publish env write) := by
  refine ⟨run.keeps, ?_⟩
  obtain ⟨told, isTold, reported⟩ := run.reports
  refine ⟨told ++ [write (env.slot second.responses.length)], ?_, ?_⟩
  · show second.responses ++ _ = _
    rw [isTold, List.append_assoc]
  · intro response member
    rcases List.mem_append.mp member with earlier | last
    · exact reported response earlier
    · rw [List.mem_singleton.mp last]
      exact reports _

theorem publishOwn (run : first.Serves who second) {ref : Nat} (acts : who = some ref)
    {write : OrderResponse → OrderResponse}
    (on : ∀ slot, (write slot).IsOn (second.order ref).identity) :
    first.Serves who (second.publish env write) := by
  refine run.publish fun slot => .own acts ?_
  rw [← run.identity]
  exact on slot

end Serves

/-! ## Engines -/

variable [OrderBookL3 β] (env : Environment) {start state : MatchState β}

omit [OrderBookL3 β] in
theorem reportRestingFill_serves (run : start.Serves who state) {resting : Option Nat}
    (known : ∀ ref, resting = some ref → start.Knows who ref) :
    start.Serves who (state.reportRestingFill env resting) := by
  unfold reportRestingFill
  split
  · exact run
  · rename_i ref
    dsimp only
    have reported : start.Serves who (state.publishOrderExecution env ref false) := by
      refine run.publish ?_
      intro slot
      have on : (slot.writeExecution (state.order ref) false).IsOn (start.order ref).identity := by
        rw [← run.identity]
        exact ⟨rfl, rfl, rfl, rfl, rfl, rfl, rfl⟩
      rcases known ref rfl with held | acts
      · exact .fill held on rfl
      · exact .own acts on
    split
    · exact reported.onBook (OrderBook.dropOrder_keeps ..)
    · exact reported

omit [OrderBookL3 β] in
theorem recordTrade_serves (run : start.Serves who state) (ctx : MatchContext) (side : BookSide)
    (aggressorId bookOrderId : Nat) (price tradeQty phantomQty : Int) :
    start.Serves who
      (state.recordTrade ctx side aggressorId bookOrderId price tradeQty phantomQty).2 := by
  unfold recordTrade
  split
  · exact run.onBook (.of_eq rfl rfl)
  · exact run

theorem handleSelfMatch_serves (run : start.Serves who state) {ref bookRef : Nat} (acts : who = some ref)
    (known : start.Knows who bookRef)
    (mine : isSelfMatch (state.order ref) (some (state.order bookRef)) = true)
    (requestTime eventTime seqNum : Nat) (smpMode : SelfMatchPreventionMode) :
    start.Serves who
      (state.handleSelfMatch env bookRef requestTime eventTime seqNum smpMode).2 := by
  cases smpMode with
  | none => exact run
  | cancelResting =>
      have deleted : start.Serves who (state.onBook fun book =>
          book.deleteOrder bookRef eventTime seqNum false) :=
        run.onBook (state.book.deleteOrder_keeps bookRef eventTime seqNum false)
      have told : start.Serves who ((state.onBook fun book =>
          book.deleteOrder bookRef eventTime seqNum false).publishOrderCancel env bookRef requestTime) := by
        refine deleted.publish fun slot => ?_
        have on : (slot.writeCancel ((state.onBook fun book =>
            book.deleteOrder bookRef eventTime seqNum false).order bookRef) requestTime).IsOn
            (start.order bookRef).identity := by
          rw [← deleted.identity]
          exact ⟨rfl, rfl, rfl, rfl, rfl, rfl, rfl⟩
        rw [isSelfMatch_congr (run.identity ref) (run.identity bookRef)] at mine
        rcases known with held | mineToo
        · exact .selfMatch acts held on rfl mine
        · exact .own mineToo on
      exact told.trans (.of_book (.of_eq rfl rfl))
  | cancelNewest => exact run

theorem fillResting_serves (run : start.Serves who state) {ref : Nat} (acts : who = some ref)
    {resting : Option Nat} (known : ∀ ref, resting = some ref → start.Knows who ref) (ctx : MatchContext)
    (side : BookSide) (bookOrderId : Nat) (price tradeQty remaining : Int) :
    start.Serves who
      (state.fillResting env ctx side ref bookOrderId resting price tradeQty remaining).2.2 := by
  unfold fillResting
  dsimp only
  have booked : start.Serves who (state.onBook fun book => book.updateOrder ref fun order =>
      order.execute price tradeQty ctx.eventTime) :=
    run.onBook (OrderBook.updateOrder_keeps ref fun _ => rfl)
  have told : start.Serves who ((state.onBook fun book => book.updateOrder ref fun order =>
      order.execute price tradeQty ctx.eventTime).publishOrderExecution env ref true) :=
    booked.publishOwn acts fun _ => ⟨rfl, rfl, rfl, rfl, rfl, rfl, rfl⟩
  have executed := told.trans (.of_book (OrderBook.executeOrder_keeps _ bookOrderId ctx.eventTime ctx.seqNum
    tradeQty (decide (remaining = 0))))
  split
  · exact executed
  · exact recordTrade_serves (reportRestingFill_serves env executed known) ..

theorem fillRestingFromFeed_serves (run : start.Serves none state) (ctx : MatchContext) (side : BookSide)
    (aggressorId bookOrderId : Nat) (price tradeQty qty : Int) :
    start.Serves none
      (state.fillRestingFromFeed env ctx side aggressorId bookOrderId price tradeQty qty).2.2.2 := by
  unfold fillRestingFromFeed
  dsimp only
  have executed := run.trans (.of_book (OrderBook.executeOrder_keeps _ bookOrderId ctx.eventTime ctx.seqNum
    tradeQty (decide (qty - tradeQty = 0))))
  split
  · exact executed
  · exact recordTrade_serves (reportRestingFill_serves env executed fun ref found =>
      run.knows ⟨bookOrderId, found⟩) ..

theorem prepareOrder_serves (run : start.Serves who state) {ref : Nat} (acts : who = some ref)
    (side : BookSide) (reach : Reach) (orderPrice orderQty : Int) (requestTime : Nat)
    (smpMode : SelfMatchPreventionMode) :
    start.Serves who (state.prepareOrder env side reach ref orderPrice orderQty requestTime smpMode).2 := by
  have cancels : ∀ after : MatchState β, start.Serves who after →
      start.Serves who (after.publishOrderCancel env ref requestTime) :=
    fun _ after => after.publishOwn acts fun _ => ⟨rfl, rfl, rfl, rfl, rfl, rfl, rfl⟩
  unfold prepareOrder
  dsimp only
  generalize (if (state.order ref).status = .pendingReplace then
    max 0 ((state.order ref).leavesQuantity + (orderQty - (state.order ref).quantity))
    else (state.order ref).leavesQuantity) = effectiveQty
  split
  · exact run
  · have acked : start.Serves who (if (state.order ref).status = .pendingNew then
        state.publishOrderAck env ref requestTime else state) := by
      split
      · exact run.publishOwn acts fun _ => ⟨rfl, rfl, rfl, rfl, rfl, rfl, rfl⟩
      · exact run
    generalize (if (state.order ref).status = .pendingNew then
      state.publishOrderAck env ref requestTime else state) = acknowledged at acked ⊢
    split
    · exact cancels _ acked
    · have replaced : start.Serves who (acknowledged.onBook fun book => book.updateOrder ref fun order =>
          { order with
            quantity := orderQty
            price := orderPrice
            leavesQuantity :=
              if order.cumQuantity ≥ orderQty then 0 else orderQty - order.cumQuantity }) :=
        acked.onBook (OrderBook.updateOrder_keeps ref fun _ => rfl)
      have modified := @Serves.publishOwn _ env _ _ _ replaced _ acts
        (fun slot => slot.writeModify _ orderPrice orderQty requestTime)
        fun _ => ⟨rfl, rfl, rfl, rfl, rfl, rfl, rfl⟩
      split
      · split
        · exact cancels _ modified
        · exact modified
      · split
        · exact cancels _ acked
        · exact acked

omit [OrderBookL3 β] in
theorem cancelUnrestableRemainder_serves (run : start.Serves who state) {ref : Nat} (acts : who = some ref)
    (remaining : Int) (requestTime : Nat) :
    start.Serves who (state.cancelUnrestableRemainder env ref remaining requestTime) := by
  unfold cancelUnrestableRemainder
  split
  · exact run.publishOwn acts fun _ => ⟨rfl, rfl, rfl, rfl, rfl, rfl, rfl⟩
  · exact run

end MatchState

namespace Fifo

variable {β : Type} [OrderBookL3 β] (env : Environment) {who : Option Nat} {start state : MatchState β}

open MatchState

theorem matchLoop_serves {ref : Nat} (acts : who = some ref) (side : BookSide) (orderPrice : Int)
    (requestTime : Nat) (smpMode : SelfMatchPreventionMode) (fuel : Nat) (ctx : MatchContext) (orderQty : Int)
    (run : start.Serves who state) :
    start.Serves who
      (matchLoop env side ref orderPrice requestTime smpMode fuel ctx orderQty state).state := by
  induction fuel generalizing ctx orderQty state with
  | zero => exact run
  | succ fuel ih =>
      unfold matchLoop
      split
      · exact run
      · split
        · exact run
        · rename_i level _
          split
          · exact run
          · rename_i bookOrder _ _
            dsimp only
            have known : ∀ found, state.book.findOrder bookOrder.orderId = some found →
                start.Knows who found := fun found isFound => run.knows ⟨_, isFound⟩
            split
            · rename_i prevented
              obtain ⟨-, mine⟩ := prevented
              cases found : state.book.findOrder bookOrder.orderId with
              | none =>
                  rw [found] at mine
                  cases mine
              | some bookRef =>
                  rw [found] at mine
                  have handled := handleSelfMatch_serves env run acts (known bookRef found) mine requestTime
                    ctx.eventTime ctx.seqNum smpMode
                  rw [Option.getD_some]
                  generalize state.handleSelfMatch env bookRef requestTime ctx.eventTime ctx.seqNum smpMode =
                    result at handled ⊢
                  obtain ⟨_ | _, after⟩ := result
                  · exact handled
                  · exact ih _ _ handled
            · have filled := fillResting_serves env run acts known ctx side bookOrder.orderId level.price
                (min orderQty bookOrder.quantity) (orderQty - min orderQty bookOrder.quantity)
              generalize state.fillResting env ctx side ref bookOrder.orderId _ level.price _ _ = result
                at filled ⊢
              obtain ⟨_ | _, ctx', after⟩ := result
              · exact filled
              · exact ih _ _ filled

theorem feedLoop_serves (side : BookSide) (aggressorId : Nat) (price : Int) (fuel : Nat) (ctx : MatchContext)
    (qty : Int) (run : start.Serves none state) :
    start.Serves none (feedLoop env side aggressorId price fuel ctx qty state).state := by
  induction fuel generalizing ctx qty state with
  | zero => exact run
  | succ fuel ih =>
      unfold feedLoop
      split
      · exact run
      · split
        · exact run
        · rename_i level _
          split
          · exact run
          · rename_i bookOrder _ _
            have filled := fillRestingFromFeed_serves env run ctx side aggressorId bookOrder.orderId level.price
              (min qty bookOrder.quantity) qty
            generalize state.fillRestingFromFeed env ctx side aggressorId bookOrder.orderId level.price _ qty =
              result at filled ⊢
            obtain ⟨_ | _, left, ctx', after⟩ := result
            · exact filled
            · exact ih _ _ filled

end Fifo

namespace ProRata

variable {β : Type} [OrderBookL3 β] (env : Environment) {who : Option Nat} {start state : MatchState β}

open MatchState

def Resolved (who : Option Nat) (start : MatchState β) (items : List Allocation) : Prop :=
  ∀ item ∈ items, ∀ ref, item.order = some ref → start.Knows who ref

theorem takeInQueue_orders (items : List Allocation) (left : Int) :
    (takeInQueue items left).1.map Allocation.order = items.map Allocation.order := by
  induction items generalizing left with
  | nil => rfl
  | cons head rest ih =>
      unfold takeInQueue
      dsimp only
      rw [List.map_cons, ih, List.map_cons]

theorem allocate_orders (config : ProRataConfig) (items : List Allocation) (qty : Int) :
    (allocate config items qty).map Allocation.order = items.map Allocation.order := by
  unfold allocate
  dsimp only
  split
  · rw [List.map_map]
    rfl
  · rw [takeInQueue_orders]
    generalize (if 0 < config.fifoPercent then floorLot config (shareOf qty config.fifoPercent 100) else 0) =
      fifo
    rw [← takeInQueue_orders items fifo]
    split
    · rw [List.map_map]
      rfl
    · rfl

omit [OrderBookL3 β] in
/-- What a level resolves to is in the maps, and allocating does not change it. -/
theorem allocate_resolved (config : ProRataConfig) (level : PriceLevelL3) (resolve : Bool) (qty : Int)
    (run : start.Serves who state) :
    Resolved who start (allocate config (blankAllocations state.book level resolve) qty) := by
  intro item member ref isOrder
  have listed : some ref ∈ (blankAllocations state.book level resolve).map Allocation.order := by
    rw [← allocate_orders config _ qty, ← isOrder]
    exact List.mem_map_of_mem member
  obtain ⟨blank, inside, isBlank⟩ := List.mem_map.mp listed
  obtain ⟨bookOrder, -, rfl⟩ := List.mem_map.mp inside
  dsimp only at isBlank
  split at isBlank
  · exact run.knows ⟨_, isBlank⟩
  · cases isBlank

theorem cancelOwn_serves {ref : Nat} (acts : who = some ref) (requestTime : Nat) (ctx : MatchContext)
    (smpMode : SelfMatchPreventionMode) {items : List Allocation} (resolved : Resolved who start items)
    (run : start.Serves who state) :
    start.Serves who (cancelOwn env ref requestTime ctx smpMode items state).2 := by
  induction items generalizing state with
  | nil => exact run
  | cons item rest ih =>
      have ih := fun after => @ih after fun other member => resolved other (List.mem_cons_of_mem _ member)
      unfold cancelOwn
      split
      · rename_i mine
        cases found : item.order with
        | none =>
            rw [found] at mine
            cases mine
        | some bookRef =>
            rw [found] at mine
            have handled := handleSelfMatch_serves env run acts
              (resolved item List.mem_cons_self bookRef found) mine requestTime ctx.eventTime ctx.seqNum smpMode
            rw [Option.getD_some]
            generalize state.handleSelfMatch env bookRef requestTime ctx.eventTime ctx.seqNum smpMode =
              result at handled ⊢
            obtain ⟨_ | _, after⟩ := result
            · exact handled
            · dsimp only
              have below := ih after handled
              generalize cancelOwn env ref requestTime ctx smpMode rest after = result at below ⊢
              obtain ⟨_ | _, last⟩ := result
              · exact below
              · exact below
      · exact ih state run

theorem fillLevel_serves {ref : Nat} (acts : who = some ref) (side : BookSide) (levelPrice : Int)
    (checkSelfMatch : Bool) {items : List Allocation} (resolved : Resolved who start items)
    (ctx : MatchContext) (orderQty : Int) (run : start.Serves who state) :
    start.Serves who
      (fillLevel env side ref levelPrice checkSelfMatch items ctx orderQty state).2.2.2 := by
  induction items generalizing ctx orderQty state with
  | nil => exact run
  | cons item rest ih =>
      have ih := fun after => @ih after fun other member => resolved other (List.mem_cons_of_mem _ member)
      unfold fillLevel
      split
      · exact ih state ctx orderQty run
      · dsimp only
        have known : ∀ found, (if checkSelfMatch then item.order else state.book.findOrder item.orderId) =
            some found → start.Knows who found := by
          intro found isFound
          split at isFound
          · exact resolved item List.mem_cons_self found isFound
          · exact run.knows ⟨_, isFound⟩
        have filled := fillResting_serves env run acts known ctx side item.orderId levelPrice item.qty
          (orderQty - item.qty)
        generalize state.fillResting env ctx side ref item.orderId _ levelPrice item.qty _ = result at filled ⊢
        obtain ⟨_ | _, ctx', after⟩ := result
        · exact filled
        · exact ih after _ _ filled

theorem feedLevel_serves (side : BookSide) (aggressorId : Nat) (levelPrice : Int) (items : List Allocation)
    (ctx : MatchContext) (qty : Int) (run : start.Serves none state) :
    start.Serves none (feedLevel env side aggressorId levelPrice items ctx qty state).2.2.2 := by
  induction items generalizing ctx qty state with
  | nil => exact run
  | cons item rest ih =>
      unfold feedLevel
      split
      · exact ih ctx qty run
      · have filled := fillRestingFromFeed_serves env run ctx side aggressorId item.orderId levelPrice item.qty
          qty
        generalize state.fillRestingFromFeed env ctx side aggressorId item.orderId levelPrice item.qty qty =
          result at filled ⊢
        obtain ⟨_ | _, left, ctx', after⟩ := result
        · exact filled
        · exact ih _ _ filled

theorem matchLoop_serves {ref : Nat} (acts : who = some ref) (config : ProRataConfig) (side : BookSide)
    (orderPrice : Int) (requestTime : Nat) (smpMode : SelfMatchPreventionMode) (fuel : Nat)
    (ctx : MatchContext) (orderQty : Int) (run : start.Serves who state) :
    start.Serves who
      (matchLoop env config side ref orderPrice requestTime smpMode fuel ctx orderQty state).state := by
  induction fuel generalizing ctx orderQty state with
  | zero => exact run
  | succ fuel ih =>
      unfold matchLoop
      split
      · exact run
      · split
        · exact run
        · rename_i level _
          dsimp only
          have resolved := allocate_resolved config level (decide (smpMode ≠ .none)) orderQty run
          generalize allocate config _ orderQty = allocations at resolved ⊢
          have handled : start.Serves who (if decide (smpMode ≠ .none) = true then
              cancelOwn env ref requestTime ctx smpMode allocations state
            else (some false, state)).2 := by
            split
            · exact cancelOwn_serves env acts requestTime ctx smpMode resolved run
            · exact run
          generalize (if decide (smpMode ≠ .none) = true then
            cancelOwn env ref requestTime ctx smpMode allocations state else (some false, state)) = result
            at handled ⊢
          obtain ⟨_ | _ | _, after⟩ := result
          · exact handled
          · dsimp only
            have filled := fillLevel_serves env acts side level.price (decide (smpMode ≠ .none)) resolved ctx
              orderQty handled
            generalize fillLevel env side ref level.price (decide (smpMode ≠ .none)) allocations ctx orderQty
              after = result at filled ⊢
            obtain ⟨_ | _, left, ctx', last⟩ := result
            · exact filled
            · exact ih _ _ filled
          · exact ih _ _ handled

theorem feedLoop_serves (config : ProRataConfig) (side : BookSide) (aggressorId : Nat) (price : Int)
    (fuel : Nat) (ctx : MatchContext) (qty : Int) (run : start.Serves none state) :
    start.Serves none (feedLoop env config side aggressorId price fuel ctx qty state).state := by
  induction fuel generalizing ctx qty state with
  | zero => exact run
  | succ fuel ih =>
      unfold feedLoop
      split
      · exact run
      · split
        · exact run
        · rename_i level _
          dsimp only
          generalize allocate config _ qty = allocations
          have filled := feedLevel_serves env side aggressorId level.price allocations ctx qty run
          generalize feedLevel env side aggressorId level.price allocations ctx qty state = result at filled ⊢
          obtain ⟨_ | _, left, ctx', after⟩ := result
          · exact filled
          · exact ih _ _ filled

end ProRata

namespace MatchState

variable {β : Type} [OrderBookL3 β] (env : Environment) (config : SymbolConfig) {who : Option Nat}
  {start state : MatchState β}

theorem matchOrder_serves (run : start.Serves who state) {ref : Nat} (acts : who = some ref)
    (engine : MatchingEngine) (orderPrice orderQty : Int) (requestTime eventTime seqNum : Nat)
    (smpMode : SelfMatchPreventionMode) :
    start.Serves who (engine.matchOrder env ref orderPrice orderQty requestTime eventTime seqNum smpMode
      state).2.2 := by
  unfold MatchingEngine.matchOrder
  dsimp only
  have prepared := prepareOrder_serves env run acts (MatchingEngine.sweptSide (state.order ref).side)
    engine.reach orderPrice orderQty requestTime smpMode
  generalize state.prepareOrder env _ engine.reach ref orderPrice orderQty requestTime smpMode = result
    at prepared ⊢
  obtain ⟨_ | done, after⟩ := result
  · dsimp only
    have looped : start.Serves who (engine.matchLoop env (MatchingEngine.sweptSide (state.order ref).side)
        ref orderPrice requestTime smpMode (MatchContext.start eventTime seqNum)
        (after.order ref).leavesQuantity after).state := by
      cases engine with
      | fifo => exact Fifo.matchLoop_serves env acts _ _ _ _ _ _ _ prepared
      | proRata config => exact ProRata.matchLoop_serves env acts _ _ _ _ _ _ _ _ prepared
    split
    · exact looped
    · exact cancelUnrestableRemainder_serves env looped acts ..
  · exact prepared

theorem matchFeed_serves (run : start.Serves none state) (engine : MatchingEngine) (side : Side)
    (orderId : Nat) (price qty : Int) (eventTime seqNum : Nat) :
    start.Serves none (engine.matchFeed env side orderId price qty eventTime seqNum state).2.2 := by
  cases engine with
  | fifo => exact Fifo.feedLoop_serves env _ _ _ _ _ _ run
  | proRata config => exact ProRata.feedLoop_serves env _ _ _ _ _ _ _ run

/-! ## Symbols -/

theorem addOrder_serves (run : start.Serves who state) {ref : Nat} (acts : who = some ref)
    (requestTime : Nat) : start.Serves who (state.addOrder env config ref requestTime).2.2 := by
  unfold addOrder
  dsimp only
  have matched := matchOrder_serves env run acts config.matchingEngine (state.order ref).price
    (state.order ref).quantity requestTime (state.order ref).createdTime 0 config.smpMode
  generalize config.matchingEngine.matchOrder env ref _ _ requestTime _ 0 config.smpMode state = result
    at matched ⊢
  split
  · refine matched.trans (.of_book ?_)
    rw [acts]
    exact OrderBook.addOrder_keeps ..
  · exact matched.trans (.of_book (.of_eq rfl rfl))

omit [OrderBookL3 β] in
theorem touchOrder_serves (run : start.Serves who state) (ref : Nat) :
    start.Serves who (state.touchOrder env ref) := by
  refine run.trans (.of_book (OrderBook.Keeps.since (OrderBook.updateOrder_keeps ref ?_) ?_ ?_))
  · exact fun _ => rfl
  · rfl
  · rfl

theorem modifyOrder_serves (run : start.Serves who state) {ref : Nat} (acts : who = some ref)
    (newPrice newQty : Int) (requestTime : Nat) :
    start.Serves who (state.modifyOrder env config ref newPrice newQty requestTime).2.2 := by
  unfold modifyOrder
  dsimp only
  have matched := matchOrder_serves env run acts config.matchingEngine newPrice newQty requestTime
    (state.order ref).lastUpdateTime 0 config.smpMode
  generalize config.matchingEngine.matchOrder env ref newPrice newQty requestTime _ 0 config.smpMode state =
    result at matched ⊢
  have touched := touchOrder_serves env matched ref
  generalize result.2.2.touchOrder env ref = touchedState at touched ⊢
  have finishes : ∀ after : MatchState β, start.Serves who after →
      start.Serves who (if (after.order ref).leavesQuantity = 0 then
        (result.1, result.2.1, after.onBook fun book => book.freeOrder ref)
      else (result.1, result.2.1, after)).2.2 := by
    intro after run
    split
    · exact run.trans (.of_book (.of_eq rfl rfl))
    · exact run
  apply finishes
  split
  · have ranked : start.Serves who
        (if (decide (newPrice ≠ (state.order ref).price) || decide (newQty > (state.order ref).quantity)) = true
        then touchedState.onBook fun book =>
          (book.nextOrderPriority.updateOrder ref fun order =>
            { order with priority := book.nextOrderPriority.globals.nextPriority }).noteJoin
              (book.nextOrderPriority.heap ref).id
        else touchedState) := by
      split
      · have moved : touchedState.book.Keeps who (touchedState.book.nextOrderPriority.updateOrder ref
            fun order => { order with priority := touchedState.book.nextOrderPriority.globals.nextPriority }) := by
          refine OrderBook.Keeps.since (OrderBook.updateOrder_keeps ref ?_) ?_ ?_
          · exact fun _ => rfl
          · rfl
          · rfl
        exact touched.trans (.of_book (moved.trans (.of_eq rfl rfl)))
      · exact touched
    refine ranked.trans (.of_book ?_)
    rw [acts]
    exact OrderBook.modifyOrder_keeps ..
  · exact touched

theorem cancelOrder_serves (run : start.Serves who state) {ref : Nat} (acts : who = some ref)
    (requestTime : Nat) : start.Serves who (state.cancelOrder env ref requestTime) := by
  unfold cancelOrder
  dsimp only
  have touched := touchOrder_serves env run ref
  have deleted := touched.trans (.of_book (OrderBook.deleteOrder_keeps (state.touchOrder env ref).book ref
    ((state.touchOrder env ref).order ref).lastUpdateTime 0 true))
  have told := @Serves.publishOwn _ env _ _ _ deleted _ acts (fun slot => slot.writeCancel _ requestTime)
    fun _ => ⟨rfl, rfl, rfl, rfl, rfl, rfl, rfl⟩
  exact told.trans (.of_book (.of_eq rfl rfl))

end MatchState

end SlickSim
