import SlickSim.OrderBook.Reference
import SlickSim.Venues.CoinbaseSequencer

/-!
# The order Coinbase events are dispatched in

A drain of a symbol's queue goes by the venue's timestamp, prints first. Where these
tie, the event enqueued last goes first: that restores the order within a batch, and
reverses two batches that wait together.
-/

set_option autoImplicit false

namespace SlickSim

/-- What the comparator sorts by: earlier events first, then prints, then the event
that was enqueued later. -/
def Event.rank (event : Event) : Nat ×ₗ Nat ×ₗ Natᵒᵈ :=
  toLex (event.eventTime, toLex (if event.type = .trade then 0 else 1, OrderDual.toDual event.sequenceId))

theorem eventCompare_iff (left right : Event) :
    eventCompare left right = true ↔ right.rank < left.rank := by
  unfold eventCompare Event.rank
  rw [Prod.Lex.toLex_lt_toLex, Prod.Lex.toLex_lt_toLex, OrderDual.toDual_lt_toDual]
  by_cases sameTime : left.eventTime = right.eventTime
  · cases leftType : left.type <;> cases rightType : right.type <;> simp [sameTime]
  · simp [sameTime, Ne.symm sameTime]

/-- What the venue has said of an event: side, price, quantity and time. -/
def CoinbaseEvent.row (event : CoinbaseEvent) : Side × Int × Int × Nat :=
  (event.side, event.price, event.qty, event.eventTime)

def Level2Update.row (update : Level2Update) : Side × Int × Int × Nat :=
  (update.side, update.price, update.newQuantity, update.eventTime)

def MarketTrade.row (trade : MarketTrade) : Side × Int × Int × Nat :=
  (trade.side, trade.price, trade.size, trade.time)

namespace CoinbaseSymbol

variable {β : Type}

/-! ## Batches -/

/-- A batch of level updates is enqueued from its newest row on. -/
theorem levelEvents_rows (seqNum : Nat) (updates : List Level2Update) :
    (levelEvents seqNum updates).reverse.map CoinbaseEvent.row = updates.map Level2Update.row := by
  unfold levelEvents
  rcases List.eq_nil_or_concat' updates with rfl | ⟨earlier, last, rfl⟩
  · rfl
  · simp [levelEvent, CoinbaseEvent.row, Level2Update.row]

/-- A batch of prints is enqueued from its newest print on. -/
theorem tradeEvents_rows (config : SymbolConfig) (seqNum : Nat) (trades : List MarketTrade) :
    (tradeEvents config seqNum trades).map CoinbaseEvent.row =
      (trades.filter fun trade => decide (trade.productId = config.symbol)).map MarketTrade.row := by
  unfold tradeEvents
  cases trades with
  | nil => rfl
  | cons newest rest =>
      by_cases mine : newest.productId = config.symbol
      · simp [mine, tradeEvent, CoinbaseEvent.row, MarketTrade.row]
      · simp [mine, tradeEvent, CoinbaseEvent.row, MarketTrade.row]

theorem enqueueAll_spec (symbol : CoinbaseSymbol β) (env : Environment) (events : List CoinbaseEvent) :
    ∃ fresh, (symbol.enqueueAll env events).pendingEvents = symbol.pendingEvents ++ fresh ∧
      fresh.map Event.toCoinbaseEvent = events ∧
      fresh.Pairwise (fun left right => left.sequenceId < right.sequenceId) ∧
      symbol.nextSequenceId ≤ (symbol.enqueueAll env events).nextSequenceId ∧
      ∀ event ∈ fresh, symbol.nextSequenceId ≤ event.sequenceId ∧
        event.sequenceId < (symbol.enqueueAll env events).nextSequenceId := by
  induction events generalizing symbol with
  | nil =>
      refine ⟨[], (List.append_nil _).symm, rfl, .nil, le_rfl, ?_⟩
      rintro _ ⟨⟩
  | cons event rest ih =>
      obtain ⟨fresh, pending, isFresh, ascending, later, bounds⟩ := ih (symbol.enqueue env event)
      have stepped : (symbol.enqueue env event).nextSequenceId = symbol.nextSequenceId + 1 := rfl
      rw [stepped] at later bounds
      refine ⟨symbol.stamp env event :: fresh, ?_, ?_, ?_, ?_, ?_⟩
      · show ((symbol.enqueue env event).enqueueAll env rest).pendingEvents = _
        rw [pending]
        simp [enqueue]
      · rw [List.map_cons, isFresh]
        rfl
      · refine List.Pairwise.cons ?_ ascending
        intro other member
        exact Nat.lt_of_succ_le (bounds other member).1
      · exact (Nat.le_succ _).trans later
      · intro other member
        rcases List.mem_cons.mp member with rfl | member
        · exact ⟨le_rfl, Nat.lt_of_succ_le later⟩
        · exact ⟨Nat.le_of_succ_le (bounds other member).1, (bounds other member).2⟩

variable [OrderBookL3 β] (symbol : CoinbaseSymbol β) (env : Environment) (config : SymbolConfig)

/-! ## Drains -/

/-- The events one call of `processSequencedEvents` dispatches, in order, and those it leaves. -/
def drained (force : Bool) : List Event × List Event :=
  PriorityQueue.drain eventCompare
    (eventReady force (symbol.exchange.book.currentTime env) symbol.lastEventTime)
    symbol.pendingEvents.length symbol.pendingEvents

private theorem processPending_eq (ready : Event → Bool) (fuel : Nat) (symbol : CoinbaseSymbol β) :
    let (served, left) := PriorityQueue.drain eventCompare ready fuel symbol.pendingEvents
    processPending env config ready fuel symbol =
      { symbol with
        pendingEvents := left
        exchange := (served.map Event.toCoinbaseEvent).foldl
          (fun exchange event => exchange.dispatchEvent env config event) symbol.exchange } := by
  induction fuel generalizing symbol with
  | zero => rfl
  | succ fuel ih =>
      unfold processPending PriorityQueue.drain
      cases PriorityQueue.top eventCompare symbol.pendingEvents with
      | none => rfl
      | some event =>
          dsimp only
          cases ready event with
          | false => rfl
          | true =>
              have rest := ih { symbol with
                pendingEvents := symbol.pendingEvents.erase event
                exchange := symbol.exchange.dispatchEvent env config event.toCoinbaseEvent }
              exact rest

/-- A drain dispatches its events one after another. -/
theorem processSequencedEvents_eq (force : Bool) :
    symbol.processSequencedEvents env config force =
      { symbol with
        pendingEvents := (symbol.drained env force).2
        exchange := ((symbol.drained env force).1.map Event.toCoinbaseEvent).foldl
          (fun exchange event => exchange.dispatchEvent env config event)
          (symbol.exchange.onBook OrderBook.readClock) } :=
  processPending_eq env config _ _ { symbol with exchange := symbol.exchange.onBook OrderBook.readClock }

end CoinbaseSymbol

/-! ## Runs -/

/-- What has happened to the events of a symbol. -/
structure EventHistory where
  /-- The batches received, each in the venue's chronological order. -/
  arrived : List (List Event)
  /-- What each drain dispatched, in order. -/
  drains : List (List Event)
  /-- What snapshots discarded. -/
  discarded : List Event

/-- The batch of an input, in the venue's chronological order. -/
def CoinbaseInput.rows (config : SymbolConfig) : CoinbaseInput → List (List (Side × Int × Int × Nat))
  | .level2Updates _ updates => [updates.map Level2Update.row]
  | .marketTrades _ trades =>
      [((trades.filter fun trade => decide (trade.productId = config.symbol)).map MarketTrade.row).reverse]
  | .level2Snapshot .. | .processSequencedEvents _ | .request _ => []

namespace EventHistory

def empty : EventHistory := ⟨[], [], []⟩

/-- The left event came first: in an earlier batch, or earlier in the same one. -/
def Precedes (history : EventHistory) (left right : Event) : Prop :=
  [left, right].Sublist history.arrived.flatten

def SameBatch (history : EventHistory) (left right : Event) : Prop :=
  ∃ batch ∈ history.arrived, left ∈ batch ∧ right ∈ batch

/-- The left event is dispatched before the right one as the venue had them: by time,
prints first, then chronologically. -/
structure Ordered (history : EventHistory) (left right : Event) : Prop where
  byTime : left.eventTime ≤ right.eventTime
  printsFirst : left.eventTime = right.eventTime → right.type = .trade → left.type = .trade
  chronological : left.eventTime = right.eventTime → left.type = right.type → history.Precedes left right

variable {β : Type} [OrderBookL3 β]

/-- Both enqueue loops walk their batch backwards. -/
def record (history : EventHistory) (symbol : CoinbaseSymbol β) (env : Environment)
    (config : SymbolConfig) : CoinbaseInput → EventHistory
  | .level2Updates seqNum updates =>
      let enqueued := (symbol.onLevel2Updates env seqNum updates).pendingEvents.drop
        symbol.pendingEvents.length
      { history with arrived := history.arrived ++ [enqueued.reverse] }
  | .marketTrades seqNum trades =>
      let enqueued := (symbol.onMarketTrades env config seqNum trades).pendingEvents.drop
        symbol.pendingEvents.length
      { history with arrived := history.arrived ++ [enqueued.reverse] }
  | .level2Snapshot _ _ => { history with discarded := history.discarded ++ symbol.pendingEvents }
  | .processSequencedEvents force =>
      { history with drains := history.drains ++ [(symbol.drained env force).1] }
  | .request _ => history

end EventHistory

/-- The states of a symbol with what has happened to its events. -/
inductive Sequenced {β : Type} [OrderBookL3 β] (env : Environment) (config : SymbolConfig)
    (allowed : CoinbaseSymbol β → EventHistory → CoinbaseInput → Prop) :
    CoinbaseSymbol β → EventHistory → Prop
  | new (pool : Nat → Order) (publishOrderUpdates : Bool) :
      Sequenced env config allowed (.new pool publishOrderUpdates) .empty
  | step {symbol : CoinbaseSymbol β} {history : EventHistory}
      (earlier : Sequenced env config allowed symbol history) (input : CoinbaseInput)
      (permitted : allowed symbol history input) :
      Sequenced env config allowed (symbol.step env config input) (history.record symbol env config input)

/-- A drain finds no two events of different batches that tie on time and type. -/
def NoTies {β : Type} (symbol : CoinbaseSymbol β) (history : EventHistory) : CoinbaseInput → Prop
  | .processSequencedEvents _ => ∀ left ∈ symbol.pendingEvents, ∀ right ∈ symbol.pendingEvents,
      left.eventTime = right.eventTime → left.type = right.type → history.SameBatch left right
  | _ => True

/-- What holds of the events of a symbol whatever comes. -/
structure EventHistory.Accounts {β : Type} (history : EventHistory) (symbol : CoinbaseSymbol β) : Prop where
  once : (history.drains.flatten ++ history.discarded ++ symbol.pendingEvents).Perm history.arrived.flatten
  numbered : ∀ event ∈ history.arrived.flatten, event.sequenceId < symbol.nextSequenceId
  distinct : (history.arrived.flatten.map Event.sequenceId).Nodup
  backwards : ∀ batch ∈ history.arrived,
    batch.Pairwise fun left right => right.sequenceId < left.sequenceId

/-- Two members of a list stand in it one way or the other. -/
private theorem sublist_or_sublist {α : Type} {items : List α} {left right : α} (isLeft : left ∈ items)
    (isRight : right ∈ items) (different : left ≠ right) :
    [left, right].Sublist items ∨ [right, left].Sublist items := by
  induction items with
  | nil => cases isLeft
  | cons head rest ih =>
      rcases List.mem_cons.mp isLeft with rfl | leftLater
      · have member : right ∈ rest := (List.mem_cons.mp isRight).resolve_left (Ne.symm different)
        exact .inl ((List.singleton_sublist.mpr member).cons_cons _)
      · rcases List.mem_cons.mp isRight with rfl | rightLater
        · exact .inr ((List.singleton_sublist.mpr leftLater).cons_cons _)
        · rcases ih leftLater rightLater with found | found
          · exact .inl (found.cons _)
          · exact .inr (found.cons _)

namespace EventHistory.Accounts

variable {β : Type} {history : EventHistory} {symbol : CoinbaseSymbol β}

theorem events_nodup (accounts : history.Accounts symbol) : history.arrived.flatten.Nodup :=
  accounts.distinct.of_map _

/-- A batch enqueued backwards under the next numbers. -/
private theorem enqueueAll (accounts : history.Accounts symbol) (env : Environment)
    (events : List CoinbaseEvent) :
    { history with arrived := history.arrived ++
        [((symbol.enqueueAll env events).pendingEvents.drop symbol.pendingEvents.length).reverse] }.Accounts
      (symbol.enqueueAll env events) := by
  obtain ⟨fresh, pending, -, ascending, later, bounds⟩ := symbol.enqueueAll_spec env events
  rw [pending, List.drop_left]
  have descending : fresh.reverse.Pairwise fun left right => right.sequenceId < left.sequenceId :=
    List.pairwise_reverse.mpr ascending
  refine ⟨?_, ?_, ?_, ?_⟩
  · rw [pending, List.flatten_concat, ← List.append_assoc]
    exact accounts.once.append (List.reverse_perm fresh).symm
  · intro event member
    rw [List.flatten_concat] at member
    rcases List.mem_append.mp member with old | new
    · exact Nat.lt_of_lt_of_le (accounts.numbered event old) later
    · exact (bounds event (List.mem_reverse.mp new)).2
  · rw [List.flatten_concat, List.map_append, List.nodup_append]
    refine ⟨accounts.distinct, ?_, ?_⟩
    · exact (List.pairwise_map.mpr descending).imp Nat.ne_of_gt
    · intro number old other new same
      obtain ⟨event, isOld, rfl⟩ := List.mem_map.mp old
      obtain ⟨fresher, isNew, rfl⟩ := List.mem_map.mp new
      have below := accounts.numbered event isOld
      have above := (bounds fresher (List.mem_reverse.mp isNew)).1
      omega
  · intro batch member
    rcases List.mem_append.mp member with old | new
    · exact accounts.backwards batch old
    · rw [List.mem_singleton.mp new]
      exact descending

/-- Whatever comes, every event is accounted for. -/
theorem step [OrderBookL3 β] (accounts : history.Accounts symbol) (env : Environment)
    (config : SymbolConfig) (input : CoinbaseInput) :
    (history.record symbol env config input).Accounts (symbol.step env config input) := by
  cases input with
  | level2Updates seqNum updates => exact accounts.enqueueAll env _
  | marketTrades seqNum trades => exact accounts.enqueueAll env _
  | level2Snapshot seqNum updates =>
      refine ⟨?_, accounts.numbered, accounts.distinct, accounts.backwards⟩
      show (history.drains.flatten ++ (history.discarded ++ symbol.pendingEvents) ++ []).Perm _
      rw [List.append_nil, ← List.append_assoc]
      exact accounts.once
  | processSequencedEvents force =>
      have numbers : (symbol.processSequencedEvents env config force).nextSequenceId =
          symbol.nextSequenceId := by
        rw [symbol.processSequencedEvents_eq env config force]
      refine ⟨?_, ?_, accounts.distinct, accounts.backwards⟩
      · show ((history.drains ++ [(symbol.drained env force).1]).flatten ++ history.discarded ++
          (symbol.processSequencedEvents env config force).pendingEvents).Perm _
        rw [symbol.processSequencedEvents_eq env config force, List.flatten_concat]
        have all : ((symbol.drained env force).1 ++ (symbol.drained env force).2).Perm
            symbol.pendingEvents := PriorityQueue.drain_perm eventCompare_iff _ _
        refine List.Perm.trans ?_ accounts.once
        rw [List.append_assoc, List.append_assoc, List.append_assoc]
        refine List.Perm.append_left _ ?_
        refine List.perm_append_comm_assoc .. |>.trans ?_
        exact List.Perm.append_left _ all
      · intro event member
        show event.sequenceId < (symbol.processSequencedEvents env config force).nextSequenceId
        rw [numbers]
        exact accounts.numbered event member
  | request input => exact ⟨accounts.once, accounts.numbered, accounts.distinct, accounts.backwards⟩

end EventHistory.Accounts

/-- What ranks first has the earlier time, is a print if the other is, and was
enqueued later where these tie. -/
private theorem rank_le {left right : Event} (first : left.rank ≤ right.rank) :
    left.eventTime ≤ right.eventTime ∧
      (left.eventTime = right.eventTime → right.type = .trade → left.type = .trade) ∧
      (left.eventTime = right.eventTime → left.type = right.type → right.sequenceId ≤ left.sequenceId) := by
  unfold Event.rank at first
  rw [Prod.Lex.toLex_le_toLex, Prod.Lex.toLex_le_toLex, OrderDual.toDual_le_toDual] at first
  refine ⟨?_, ?_, ?_⟩
  · rcases first with earlier | ⟨same, -⟩
    · exact Nat.le_of_lt earlier
    · exact Nat.le_of_eq same
  · intro same isTrade
    rcases first with earlier | ⟨-, byType⟩
    · exact absurd same (Nat.ne_of_lt earlier)
    · by_contra notTrade
      simp [isTrade, notTrade] at byType
  · intro same sameType
    rcases first with earlier | ⟨-, byType | ⟨-, byNumber⟩⟩
    · exact absurd same (Nat.ne_of_lt earlier)
    · simp [sameType] at byType
    · exact byNumber

/-- A drain that finds no ties goes by the venue's order. -/
private theorem drained_ordered {β : Type} [OrderBookL3 β] {symbol : CoinbaseSymbol β}
    {history : EventHistory} (accounts : history.Accounts symbol) (env : Environment) (force : Bool)
    (apart : NoTies symbol history (.processSequencedEvents force)) :
    (symbol.drained env force).1.Pairwise history.Ordered := by
  have all : ((symbol.drained env force).1 ++ (symbol.drained env force).2).Perm symbol.pendingEvents :=
    PriorityQueue.drain_perm eventCompare_iff _ _
  have sorted : (symbol.drained env force).1.Pairwise fun left right => left.rank ≤ right.rank :=
    PriorityQueue.drain_sorted eventCompare_iff _ _
  have pendingDistinct : symbol.pendingEvents.Nodup :=
    (accounts.once.nodup_iff.mpr accounts.events_nodup).of_append_right
  have distinct : (symbol.drained env force).1.Nodup :=
    (all.nodup_iff.mpr pendingDistinct).of_append_left
  refine (sorted.and distinct).imp_of_mem ?_
  intro left right isLeft isRight ⟨first, different⟩
  have leftPending : left ∈ symbol.pendingEvents := all.subset (List.mem_append_left _ isLeft)
  have rightPending : right ∈ symbol.pendingEvents := all.subset (List.mem_append_left _ isRight)
  obtain ⟨byTime, printsFirst, byNumber⟩ := rank_le first
  refine ⟨byTime, printsFirst, ?_⟩
  intro sameTime sameType
  obtain ⟨batch, member, leftIn, rightIn⟩ :=
    apart left leftPending right rightPending sameTime sameType
  rcases sublist_or_sublist leftIn rightIn different with forward | backward
  · exact forward.trans (List.sublist_flatten_of_mem member)
  · have less := List.pairwise_iff_forall_sublist.mp (accounts.backwards batch member) backward
    have most := byNumber sameTime sameType
    omega

theorem EventHistory.Ordered.later {history : EventHistory} {left right : Event}
    (ordered : history.Ordered left right) (more : List (List Event)) (drains : List (List Event))
    (discarded : List Event) :
    (⟨history.arrived ++ more, drains, discarded⟩ : EventHistory).Ordered left right := by
  refine ⟨ordered.byTime, ordered.printsFirst, ?_⟩
  intro sameTime sameType
  refine (ordered.chronological sameTime sameType).trans ?_
  rw [List.flatten_append]
  exact List.sublist_append_left _ _

/-- While no drain finds a tie between batches, every drain goes by the venue's order.
Every event is dispatched once, waits, or was discarded by a snapshot. -/
theorem Sequenced.ordered {β : Type} [OrderBookL3 β] {env : Environment} {config : SymbolConfig}
    {symbol : CoinbaseSymbol β} {history : EventHistory}
    (sequenced : Sequenced env config NoTies symbol history) :
    (∀ drain ∈ history.drains, drain.Pairwise history.Ordered) ∧
      history.arrived.flatten.Nodup ∧
      (history.drains.flatten ++ history.discarded ++ symbol.pendingEvents).Perm
        history.arrived.flatten := by
  suffices invariant : (∀ drain ∈ history.drains, drain.Pairwise history.Ordered) ∧
      history.Accounts symbol from ⟨invariant.1, invariant.2.events_nodup, invariant.2.once⟩
  induction sequenced with
  | new pool publishOrderUpdates =>
      refine ⟨?_, ⟨.nil, ?_, .nil, ?_⟩⟩
      · rintro _ ⟨⟩
      · rintro _ ⟨⟩
      · rintro _ ⟨⟩
  | @step symbol history earlier input permitted ih =>
      obtain ⟨ordered, accounts⟩ := ih
      refine ⟨?_, accounts.step env config input⟩
      have later : ∀ more drains discarded, ∀ drain ∈ history.drains,
          drain.Pairwise (⟨history.arrived ++ more, drains, discarded⟩ : EventHistory).Ordered :=
        fun more drains discarded drain member =>
          (ordered drain member).imp fun pair => pair.later more drains discarded
      have same : history.arrived ++ [] = history.arrived := List.append_nil _
      cases input with
      | level2Updates seqNum updates => exact later _ _ _
      | marketTrades seqNum trades => exact later _ _ _
      | level2Snapshot seqNum updates =>
          have kept := later [] history.drains (history.discarded ++ symbol.pendingEvents)
          rw [same] at kept
          exact kept
      | request input => exact ordered
      | processSequencedEvents force =>
          have kept := later [] (history.drains ++ [(symbol.drained env force).1]) history.discarded
          have new := (drained_ordered accounts env force permitted).imp fun pair =>
            pair.later [] (history.drains ++ [(symbol.drained env force).1]) history.discarded
          rw [same] at kept new
          intro drain member
          rcases List.mem_append.mp member with old | last
          · exact kept drain old
          · rw [List.mem_singleton.mp last]
            exact new

section Examples

variable {β : Type} [OrderBookL3 β] (env : Environment) (config : SymbolConfig)

/-- A run of inputs with what happens to the events on the way. -/
def runEvents (inputs : List CoinbaseInput) (state : CoinbaseSymbol β × EventHistory) :
    CoinbaseSymbol β × EventHistory :=
  inputs.foldl (fun state input => (state.1.step env config input, state.2.record state.1 env config input))
    state

variable (allowed : CoinbaseSymbol β → EventHistory → CoinbaseInput → Prop)

/-- Each of the inputs is allowed when its turn comes. -/
def EventsTaken (state : CoinbaseSymbol β × EventHistory) : List CoinbaseInput → Prop
  | [] => True
  | input :: rest =>
      allowed state.1 state.2 input ∧ EventsTaken
        (state.1.step env config input, state.2.record state.1 env config input) rest

variable {env config allowed}

theorem Sequenced.run (inputs : List CoinbaseInput) {state : CoinbaseSymbol β × EventHistory}
    (sequenced : Sequenced env config allowed state.1 state.2)
    (taken : EventsTaken env config allowed state inputs) :
    Sequenced env config allowed (runEvents env config inputs state).1
      (runEvents env config inputs state).2 := by
  induction inputs generalizing state with
  | nil => exact sequenced
  | cons input rest ih =>
      obtain ⟨permitted, taken⟩ := taken
      exact @ih (_, _) (sequenced.step input permitted) taken

variable (env) in
omit [OrderBookL3 β] in
theorem enqueueAll_rows (symbol : CoinbaseSymbol β) (events : List CoinbaseEvent) :
    ((symbol.enqueueAll env events).pendingEvents.drop symbol.pendingEvents.length).reverse.map
      (fun event => event.toCoinbaseEvent.row) = events.reverse.map CoinbaseEvent.row := by
  obtain ⟨fresh, pending, isFresh, -⟩ := symbol.enqueueAll_spec env events
  rw [pending, List.drop_left, ← isFresh, ← List.map_reverse, List.map_map]
  rfl

/-- The batches of a run arrive, row by row, as the venue has sent them, the older row first: the
order among the events that `EventHistory.Ordered` compares them by. -/
theorem arrived_rows (inputs : List CoinbaseInput) (state : CoinbaseSymbol β × EventHistory) :
    (runEvents env config inputs state).2.arrived.map (List.map fun event => event.toCoinbaseEvent.row) =
      state.2.arrived.map (List.map fun event => event.toCoinbaseEvent.row) ++
        inputs.flatMap (CoinbaseInput.rows config) := by
  induction inputs generalizing state with
  | nil => exact (List.append_nil _).symm
  | cons input rest ih =>
      refine (ih _).trans ?_
      rw [List.flatMap_cons, ← List.append_assoc]
      refine congrArg (· ++ _) ?_
      cases input with
      | level2Updates seqNum updates =>
          refine List.map_append.trans (congrArg (_ ++ [·]) ?_)
          exact (enqueueAll_rows env state.1 _).trans (CoinbaseSymbol.levelEvents_rows seqNum updates)
      | marketTrades seqNum trades =>
          refine List.map_append.trans (congrArg (_ ++ [·]) ?_)
          refine (enqueueAll_rows env state.1 _).trans ?_
          rw [List.map_reverse, CoinbaseSymbol.tradeEvents_rows]
      | level2Snapshot seqNum updates => exact (List.append_nil _).symm
      | processSequencedEvents force => exact (List.append_nil _).symm
      | request input => exact (List.append_nil _).symm

end Examples

/-- An offer of so much at one level, all at one time. -/
private def offered (qty : Nat) : Level2Update :=
  { side := .sell, price := 100, newQuantity := qty, eventTime := 1
    newQuantity_nonneg := Int.natCast_nonneg qty }

private def emptySymbol : CoinbaseSymbol ReferenceBook × EventHistory :=
  (.new (fun _ => default) true, .empty)

/-- One batch that updates a level twice is applied in its order. -/
theorem ordered_oneBatch :
    let env := Environment.counted fun _ => default
    let config := SymbolConfig.reference .none
    let inputs := [.level2Updates 1 [offered 5, offered 7], .processSequencedEvents true]
    let final := runEvents env config inputs emptySymbol
    ∀ drain ∈ final.2.drains, drain.Pairwise final.2.Ordered := by
  intro env config inputs final
  have start : Sequenced env config NoTies emptySymbol.1 emptySymbol.2 := .new _ _
  refine (Sequenced.ordered (start.run inputs ⟨trivial, ?_, trivial⟩)).1
  show ∀ left ∈ _, ∀ right ∈ _, _ → _ → EventHistory.SameBatch _ left right
  unfold EventHistory.SameBatch
  decide +kernel

/-- Two batches that update a level at the same time are applied in reverse: the older
quantity last. -/
theorem reversed_twoBatches :
    let env := Environment.counted fun _ => default
    let config := SymbolConfig.reference .none
    let inputs := [.level2Updates 1 [offered 5], .level2Updates 2 [offered 7], .processSequencedEvents true]
    let final := runEvents env config inputs emptySymbol
    Sequenced env config (fun _ _ _ => True) final.1 final.2 ∧
      final.2.drains.flatten.map (fun event => event.qty) = [7, 5] ∧
      ¬ ∀ drain ∈ final.2.drains, drain.Pairwise final.2.Ordered := by
  intro env config inputs final
  have start : Sequenced env config (fun _ _ _ => True) emptySymbol.1 emptySymbol.2 := .new _ _
  refine ⟨start.run inputs ⟨trivial, trivial, trivial, trivial⟩, by decide +kernel, ?_⟩
  intro ordered
  have reversed : ∃ drain ∈ final.2.drains, ∃ left ∈ drain, ∃ right ∈ drain, [left, right].Sublist drain ∧
      left.eventTime = right.eventTime ∧ left.type = right.type ∧
      ¬ [left, right].Sublist final.2.arrived.flatten := by decide +kernel
  obtain ⟨drain, member, left, -, right, -, inOrder, sameTime, sameType, wrong⟩ := reversed
  have pair := List.pairwise_iff_forall_sublist.mp (ordered drain member) inOrder
  exact wrong (pair.chronological sameTime sameType)

end SlickSim
