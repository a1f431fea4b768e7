import SlickSim.Engine.Trail

/-!
# Which rows close an event

The flags of the cached level rows. A mutation flags the last level update it tells
when it is called as the last of its event, and no other one.
-/

set_option autoImplicit false

namespace SlickSim

open OrderBookL3 (restingOrders)

/-! ## Flags of rows -/

/-- No flag is set. -/
def Unflagged (flags : List Bool) : Prop :=
  ∀ flag ∈ flags, flag = false

/-- The last flag is set and no earlier one. -/
def Closing (flags : List Bool) : Prop :=
  ∃ earlier, flags = earlier ++ [true] ∧ Unflagged earlier

/-- The flags of one mutation. -/
structure Batch (isLast : Bool) (flags : List Bool) : Prop where
  ends : ∀ earlier last, flags = earlier ++ [last] → last = isLast ∧ Unflagged earlier

theorem Unflagged.nil : Unflagged [] := by
  rintro _ ⟨⟩

theorem unflagged_append {first later : List Bool} :
    Unflagged (first ++ later) ↔ Unflagged first ∧ Unflagged later :=
  List.forall_mem_append

/-- Rows that follow close the event if they close it by themselves and nothing before
them is flagged. -/
theorem closing_append {first later : List Bool} (some : later ≠ []) :
    Closing (first ++ later) ↔ Unflagged first ∧ Closing later := by
  obtain ⟨init, last, rfl⟩ := (List.eq_nil_or_concat' later).resolve_left some
  constructor
  · rintro ⟨earlier, whole, quiet⟩
    rw [← List.append_assoc] at whole
    obtain ⟨rfl, sameLast⟩ := List.append_inj' whole rfl
    obtain ⟨quietFirst, quietInit⟩ := unflagged_append.mp quiet
    exact ⟨quietFirst, init, by rw [sameLast], quietInit⟩
  · rintro ⟨quietFirst, earlier, whole, quiet⟩
    exact ⟨first ++ earlier, by rw [whole, List.append_assoc], unflagged_append.mpr ⟨quietFirst, quiet⟩⟩

theorem Closing.ne_nil {flags : List Bool} (closing : Closing flags) : flags ≠ [] := by
  obtain ⟨earlier, rfl, -⟩ := closing
  exact List.append_ne_nil_of_right_ne_nil _ (List.cons_ne_nil _ _)

theorem Unflagged.not_closing {flags : List Bool} (quiet : Unflagged flags) : ¬ Closing flags := by
  rintro ⟨earlier, rfl, -⟩
  cases quiet true (List.mem_append_right _ (List.mem_singleton.mpr rfl))

theorem Closing.not_unflagged {flags : List Bool} (closing : Closing flags) : ¬ Unflagged flags :=
  fun quiet => quiet.not_closing closing

namespace Batch

variable {flags : List Bool}

theorem nil {isLast : Bool} : Batch isLast [] where
  ends := fun _ _ whole => absurd whole.symm (by simp)

theorem unflagged (batch : Batch false flags) : Unflagged flags := by
  rcases List.eq_nil_or_concat' flags with rfl | ⟨earlier, last, rfl⟩
  · exact .nil
  · obtain ⟨rfl, quiet⟩ := batch.ends _ _ rfl
    exact unflagged_append.mpr ⟨quiet, by simp [Unflagged]⟩

theorem closing (batch : Batch true flags) (some : flags ≠ []) : Closing flags := by
  obtain ⟨earlier, last, rfl⟩ := (List.eq_nil_or_concat' flags).resolve_left some
  obtain ⟨rfl, quiet⟩ := batch.ends _ _ rfl
  exact ⟨earlier, rfl, quiet⟩

end Batch

/-! ## The book library -/

def L3Result.flags {β : Type} (result : L3Result β) : List Bool :=
  result.levelUpdates.map PriceLevelUpdate.lastInBatch

/-- Each mutation flags the last level update it tells as it is asked to, and no other.
A modification tells the levels it touches whenever it tells the order. -/
structure OrderBookL3.FlagsBatches (β : Type) [OrderBookL3 β] : Prop where
  addOrder (book : β) (orderId : Nat) (side : BookSide) (price quantity : Int)
    (timestamp priority seqNum : Nat) (isLast : Bool) : Batch isLast
      (OrderBookL3.addOrder book orderId side price quantity timestamp priority seqNum isLast).flags
  modifyOrder (book : β) (orderId : Nat) (newPrice newQuantity : Int)
    (timestamp priority seqNum : Nat) (isLast : Bool) : Batch isLast
      (OrderBookL3.modifyOrder book orderId newPrice newQuantity timestamp priority seqNum isLast).flags
  deleteOrder (book : β) (orderId timestamp seqNum : Nat) (isLast : Bool) :
    Batch isLast (OrderBookL3.deleteOrder book orderId timestamp seqNum isLast).flags
  executeOrder (book : β) (orderId : Nat) (executedQuantity : Int) (timestamp seqNum : Nat)
    (isLast : Bool) : Batch isLast
      (OrderBookL3.executeOrder book orderId executedQuantity timestamp seqNum isLast).flags
  modifyOrder_told (book : β) (orderId : Nat) (newPrice newQuantity : Int)
    (timestamp priority seqNum : Nat) (isLast : Bool) :
    let result := OrderBookL3.modifyOrder book orderId newPrice newQuantity timestamp priority seqNum isLast
    result.levelUpdates = [] ↔ result.orderUpdates = []

namespace OrderBook

theorem cacheLevelUpdates_flags (told : Nat) (updates : List PriceLevelUpdate) :
    (cacheLevelUpdates told updates).map (fun row => row.flags.endEvent) =
      updates.map PriceLevelUpdate.lastInBatch := by
  induction updates generalizing told with
  | nil => rfl
  | cons update rest ih =>
      unfold cacheLevelUpdates
      rw [List.map_cons, ih, List.map_cons]
      rfl

theorem cacheLevelUpdates_length (told : Nat) (updates : List PriceLevelUpdate) :
    (cacheLevelUpdates told updates).length = updates.length := by
  have lengths := congrArg List.length (cacheLevelUpdates_flags told updates)
  rwa [List.length_map, List.length_map] at lengths

variable {β : Type} {first second third : OrderBook β}

def endFlags (book : OrderBook β) : List Bool :=
  book.mdLevelUpdateCache.map fun row => row.flags.endEvent

def Caches (flags : List Bool) (before after : OrderBook β) : Prop :=
  after.endFlags = before.endFlags ++ flags

theorem Caches.of_same (same : second.mdLevelUpdateCache = first.mdLevelUpdateCache) :
    Caches [] first second := by
  unfold Caches endFlags
  rw [same, List.append_nil]

theorem Caches.trans {flags later : List Bool} (left : Caches flags first second)
    (right : Caches later second third) : Caches (flags ++ later) first third := by
  unfold Caches at *
  rw [right, left, List.append_assoc]

theorem Caches.quiet {flags : List Bool} (left : Caches flags first second)
    (same : third.mdLevelUpdateCache = second.mdLevelUpdateCache) : Caches flags first third := by
  have both := left.trans (.of_same same)
  rwa [List.append_nil] at both

theorem Caches.since {flags : List Bool} (right : Caches flags second third)
    (same : second.mdLevelUpdateCache = first.mdLevelUpdateCache) : Caches flags first third :=
  (Caches.of_same same).trans right

variable [OrderBookL3 β]

theorem Caches.ne_nil {flags : List Bool} (caches : Caches flags first second) (tells : first.Tells second)
    {side : BookSide} {price : Int} (changed : levelQty (restingOrders second.l3 side) price ≠
      levelQty (restingOrders first.l3 side) price) : flags ≠ [] := by
  obtain ⟨levels, orders, told⟩ := tells
  rintro rfl
  have lengths := congrArg List.length caches
  have rows := congrArg List.length told.levelCache
  unfold endFlags at lengths
  rw [List.length_append, List.length_map, List.length_map] at lengths
  rw [List.length_map, List.length_map, List.length_append, cacheLevelUpdates_length] at rows
  have nothing : levels = [] := List.eq_nil_of_length_eq_zero (by simp at lengths; omega)
  have exact := told.exact side price
  rw [nothing] at exact
  exact changed exact.symm

def Batches (isLast : Bool) (before after : OrderBook β) : Prop :=
  ∃ flags, Batch isLast flags ∧ Caches flags before after

omit [OrderBookL3 β] in
theorem onOrderUpdates_cache (updates : List OrderUpdate) (book : OrderBook β) :
    (updates.foldl onOrderUpdate book).mdLevelUpdateCache = book.mdLevelUpdateCache ∧
      (updates.foldl onOrderUpdate book).orderTrail = book.orderTrail := by
  induction updates generalizing book with
  | nil => exact ⟨rfl, rfl⟩
  | cons update rest ih =>
      obtain ⟨cache, trail⟩ := ih (book.onOrderUpdate update)
      have here : (book.onOrderUpdate update).mdLevelUpdateCache = book.mdLevelUpdateCache ∧
          (book.onOrderUpdate update).orderTrail = book.orderTrail := by
        unfold onOrderUpdate
        split
        · exact ⟨rfl, rfl⟩
        · split <;> exact ⟨rfl, rfl⟩
      exact ⟨cache.trans here.1, trail.trans here.2⟩

omit [OrderBookL3 β] in
theorem absorb_caches (book : OrderBook β) (result : L3Result β) :
    Caches result.flags book (book.absorb result) := by
  unfold Caches endFlags L3Result.flags
  unfold absorb
  rw [(onOrderUpdates_cache result.orderUpdates _).1, ← cacheLevelUpdates_flags book.levelTrail.length,
    ← List.map_append]

omit [OrderBookL3 β] in
theorem absorb_orderTrail (book : OrderBook β) (result : L3Result β) :
    (book.absorb result).orderTrail = book.orderTrail ++ result.orderUpdates := by
  unfold absorb
  exact (onOrderUpdates_cache result.orderUpdates _).2

section Mutators

variable (law : OrderBookL3.FlagsBatches β) (book : OrderBook β) (ref id timestamp seqNum : Nat)
  (price qty : Int) (isLast : Bool)

include law

theorem addOrder_batches : Batches isLast book (book.addOrder ref timestamp seqNum isLast) := by
  unfold addOrder
  dsimp only
  exact ⟨_, law.addOrder .., (absorb_caches ..).since rfl⟩

theorem deleteOrder_batches : Batches isLast book (book.deleteOrder ref timestamp seqNum isLast) := by
  have deleted : Batches isLast book
      (book.deleteL3Order (book.heap ref).id timestamp seqNum isLast) := by
    unfold deleteL3Order
    exact ⟨_, law.deleteOrder .., (absorb_caches ..).since rfl⟩
  unfold deleteOrder
  dsimp only
  split
  · obtain ⟨flags, batch, caches⟩ := deleted
    exact ⟨flags, batch, caches.quiet rfl⟩
  · exact deleted

theorem modifyOrder_batches :
    ∃ flags, Batch isLast flags ∧
      Caches flags book (book.modifyOrder ref price qty timestamp seqNum isLast) ∧
      (flags = [] ↔
        (book.modifyOrder ref price qty timestamp seqNum isLast).orderTrail = book.orderTrail) := by
  have finishes : ∀ (entered : OrderBook β) (gone : Prop) [Decidable gone] (id priority : Nat)
      (newPrice newQty : Int), entered.mdLevelUpdateCache = book.mdLevelUpdateCache →
      entered.orderTrail = book.orderTrail →
      let modified := entered.modifyL3Order id newPrice newQty timestamp priority seqNum isLast
      let after := if gone then modified.unregisterOrder ref else modified
      ∃ flags, Batch isLast flags ∧ Caches flags book after ∧ (flags = [] ↔ after.orderTrail = book.orderTrail) := by
    intro entered gone _ id priority newPrice newQty sameCache sameTrail
    dsimp only
    have told := law.modifyOrder_told entered.l3 id newPrice newQty timestamp priority seqNum isLast
    have caches : Caches (OrderBookL3.modifyOrder entered.l3 id newPrice newQty timestamp priority seqNum
        isLast).flags book (entered.modifyL3Order id newPrice newQty timestamp priority seqNum isLast) :=
      (absorb_caches ..).since sameCache
    have trail : (entered.modifyL3Order id newPrice newQty timestamp priority seqNum isLast).orderTrail =
        book.orderTrail ++ (OrderBookL3.modifyOrder entered.l3 id newPrice newQty timestamp priority seqNum
          isLast).orderUpdates := by
      rw [← sameTrail]
      exact absorb_orderTrail ..
    refine ⟨_, law.modifyOrder entered.l3 id newPrice newQty timestamp priority seqNum isLast, ?_, ?_⟩
    · split
      · exact caches.quiet rfl
      · exact caches
    · have sameTrail : (if gone then (entered.modifyL3Order id newPrice newQty timestamp priority seqNum
          isLast).unregisterOrder ref else
            entered.modifyL3Order id newPrice newQty timestamp priority seqNum isLast).orderTrail =
          (entered.modifyL3Order id newPrice newQty timestamp priority seqNum isLast).orderTrail := by
        split <;> rfl
      rw [sameTrail, trail, List.append_right_eq_self]
      exact List.map_eq_nil_iff.trans told
  unfold modifyOrder
  dsimp only
  apply finishes
  all_goals
    cases book.findOrder (book.heap ref).id with
    | none =>
        dsimp only
        split <;> rfl
    | some _ =>
        dsimp only
        split <;> rfl

theorem executeOrder_batches :
    Batches isLast book (book.executeOrder id qty timestamp seqNum isLast).2 := by
  unfold executeOrder
  split
  · exact ⟨[], .nil, .of_same rfl⟩
  · cases found : book.findOrder id with
    | none =>
        dsimp only
        exact ⟨_, law.executeOrder .., (absorb_caches ..).since rfl⟩
    | some ref =>
        dsimp only
        have filled := (absorb_caches ((book.updateOrder ref fun order =>
          order.execute order.price qty timestamp).noteDeclined ((OrderBookL3.executeOrder book.l3 id qty
            timestamp seqNum isLast).accepted = false)) (OrderBookL3.executeOrder book.l3 id qty timestamp
              seqNum isLast)).since (show _ = book.mdLevelUpdateCache from rfl)
        split
        · exact ⟨_, law.executeOrder .., filled.quiet rfl⟩
        · exact ⟨_, law.executeOrder .., filled⟩

end Mutators

end OrderBook

/-! ## Engines -/

namespace MatchState

variable {β : Type} [OrderBookL3 β] (state : MatchState β) (env : Environment)

open OrderBook (Batches Caches)

omit [OrderBookL3 β] in
theorem reportRestingFill_cache (resting : Option Nat) :
    (state.reportRestingFill env resting).book.mdLevelUpdateCache = state.book.mdLevelUpdateCache := by
  unfold reportRestingFill
  split
  · rfl
  · dsimp only
    split
    · show (OrderBook.dropOrder _ _).mdLevelUpdateCache = _
      unfold OrderBook.dropOrder
      dsimp only
      split <;> rfl
    · rfl

omit [OrderBookL3 β] in
theorem recordTrade_cache (ctx : MatchContext) (side : BookSide) (aggressorId bookOrderId : Nat)
    (price tradeQty phantomQty : Int) :
    (state.recordTrade ctx side aggressorId bookOrderId price tradeQty phantomQty).2.book.mdLevelUpdateCache =
      state.book.mdLevelUpdateCache := by
  unfold recordTrade
  split <;> rfl

/-- An order of the aggressor's own is cancelled in the middle of its event. -/
theorem handleSelfMatch_batches (law : OrderBookL3.FlagsBatches β)
    (bookRef requestTime eventTime seqNum : Nat) (smpMode : SelfMatchPreventionMode) :
    Batches false state.book
      (state.handleSelfMatch env bookRef requestTime eventTime seqNum smpMode).2.book := by
  have unmoved : Batches false state.book state.book :=
    ⟨[], .nil, .of_same rfl⟩
  cases smpMode with
  | none => exact unmoved
  | cancelResting =>
      obtain ⟨flags, batch, caches⟩ := state.book.deleteOrder_batches law bookRef eventTime seqNum false
      exact ⟨flags, batch, caches.quiet rfl⟩
  | cancelNewest => exact unmoved

/-- A fill is the last of its event when it leaves the aggressor nothing. -/
theorem fillResting_batches (law : OrderBookL3.FlagsBatches β) (ctx : MatchContext) (side : BookSide)
    (ref bookOrderId : Nat) (resting : Option Nat) (price tradeQty remaining : Int) :
    Batches (decide (remaining = 0)) state.book
      (state.fillResting env ctx side ref bookOrderId resting price tradeQty remaining).2.2.book := by
  unfold fillResting
  dsimp only
  obtain ⟨flags, batch, caches⟩ := OrderBook.executeOrder_batches law ((state.onBook fun book =>
    book.updateOrder ref fun order => order.execute price tradeQty ctx.eventTime).publishOrderExecution env
      ref true).book bookOrderId ctx.eventTime ctx.seqNum tradeQty (decide (remaining = 0))
  have caches := caches.since (show _ = state.book.mdLevelUpdateCache from rfl)
  split
  · exact ⟨flags, batch, caches⟩
  · exact ⟨flags, batch, caches.quiet ((recordTrade_cache ..).trans (reportRestingFill_cache ..))⟩

theorem prepareOrder_cache (side : BookSide) (reach : Reach) (ref : Nat) (orderPrice orderQty : Int)
    (requestTime : Nat) (smpMode : SelfMatchPreventionMode) :
    (state.prepareOrder env side reach ref orderPrice orderQty requestTime smpMode).2.book.mdLevelUpdateCache =
      state.book.mdLevelUpdateCache := by
  unfold prepareOrder
  dsimp only
  split_ifs <;> rfl

omit [OrderBookL3 β] in
theorem cancelUnrestableRemainder_cache (ref : Nat) (remaining : Int) (requestTime : Nat) :
    (state.cancelUnrestableRemainder env ref remaining requestTime).book.mdLevelUpdateCache =
      state.book.mdLevelUpdateCache := by
  unfold cancelUnrestableRemainder
  split <;> rfl

end MatchState

/-- `Symbol::addOrder` flags the last row, whatever its flag was. -/
theorem closeEvent_concat (rows : List MDLevel) (last : MDLevel) :
    closeEvent (rows ++ [last]) = rows ++ [{ last with flags := { last.flags with endEvent := true } }] := by
  induction rows with
  | nil => rfl
  | cons row rest ih =>
      obtain ⟨next, others, isNext⟩ := List.exists_cons_of_ne_nil
        (List.append_ne_nil_of_right_ne_nil rest (List.cons_ne_nil last []))
      rw [List.cons_append, isNext]
      unfold closeEvent
      rw [← isNext, ih]
      rfl

end SlickSim
