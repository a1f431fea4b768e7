import SlickSim.Properties.DispatchOrder

/-!
# Waiting for late events

A drain of `processSequencedEvents` holds an event back until the venue's time is a second
past it. While events come no later than that and none has to be released because it waited
too long, the events of all drains together go by the venue's order, however the drains are
timed: as one drain of everything would have had them.
-/

set_option autoImplicit false

namespace SlickSim

namespace CoinbaseSymbol

variable {β : Type}

/-- An event of this time is not late: what a drain has released is older. -/
def Awaits (symbol : CoinbaseSymbol β) (eventTime : Nat) : Prop :=
  symbol.lastEventTime < eventTime + oneSecondNs ∧ eventTime + oneSecondNs < 2 ^ 64

instance (symbol : CoinbaseSymbol β) (eventTime : Nat) : Decidable (symbol.Awaits eventTime) :=
  inferInstanceAs (Decidable (_ ∧ _))

/-- No batch brings a late event, and no drain releases an event early. -/
def InTime (env : Environment) (config : SymbolConfig) (symbol : CoinbaseSymbol β) (_ : EventHistory) :
    CoinbaseInput → Prop
  | .level2Updates _ updates => ∀ update ∈ updates, symbol.Awaits update.eventTime
  | .marketTrades _ trades => ∀ trade ∈ trades, trade.productId = config.symbol → symbol.Awaits trade.time
  | .processSequencedEvents force => ∀ event ∈ symbol.pendingEvents,
      eventReady force (symbol.exchange.book.currentTime env) symbol.lastEventTime event = true →
        event.eventTime + oneSecondNs ≤ symbol.lastEventTime
  | .level2Snapshot .. | .request _ => True

instance (env : Environment) (config : SymbolConfig) (symbol : CoinbaseSymbol β) (history : EventHistory) :
    DecidablePred (symbol.InTime env config history)
  | .level2Updates _ updates => inferInstanceAs (Decidable (∀ update ∈ updates, _))
  | .marketTrades _ trades => inferInstanceAs (Decidable (∀ trade ∈ trades, _ → _))
  | .processSequencedEvents _ => inferInstanceAs (Decidable (∀ event ∈ symbol.pendingEvents, _ → _))
  | .level2Snapshot .. | .request _ => .isTrue trivial

theorem enqueueAll_lastEventTime (symbol : CoinbaseSymbol β) (env : Environment) (events : List CoinbaseEvent) :
    symbol.lastEventTime ≤ (symbol.enqueueAll env events).lastEventTime := by
  induction events generalizing symbol with
  | nil => exact le_rfl
  | cons event rest ih => exact (Nat.le_max_left ..).trans (ih (symbol.enqueue env event))

theorem mem_levelEvents {seqNum : Nat} {updates : List Level2Update} {event : CoinbaseEvent}
    (member : event ∈ levelEvents seqNum updates) : ∃ update ∈ updates, event.eventTime = update.eventTime := by
  have isRow : event.row ∈ updates.map Level2Update.row := by
    rw [← levelEvents_rows seqNum]
    exact List.mem_map_of_mem (List.mem_reverse.mpr member)
  obtain ⟨update, isUpdate, same⟩ := List.mem_map.mp isRow
  exact ⟨update, isUpdate, (congrArg (fun row => row.2.2.2) same).symm⟩

theorem mem_tradeEvents {config : SymbolConfig} {seqNum : Nat} {trades : List MarketTrade}
    {event : CoinbaseEvent} (member : event ∈ tradeEvents config seqNum trades) :
    ∃ trade ∈ trades, trade.productId = config.symbol ∧ event.eventTime = trade.time := by
  have isRow := List.mem_map_of_mem (f := CoinbaseEvent.row) member
  rw [tradeEvents_rows] at isRow
  obtain ⟨trade, isTrade, same⟩ := List.mem_map.mp isRow
  obtain ⟨inside, mine⟩ := List.mem_filter.mp isTrade
  exact ⟨trade, inside, of_decide_eq_true mine, (congrArg (fun row => row.2.2.2) same).symm⟩

end CoinbaseSymbol

open CoinbaseSymbol

/-- What was released is sorted, a second past, and in front of all that waits. -/
structure EventHistory.Released {β : Type} (history : EventHistory) (symbol : CoinbaseSymbol β) : Prop where
  sorted : history.drains.flatten.Pairwise fun left right => left.rank ≤ right.rank
  past : ∀ event ∈ history.drains.flatten, event.eventTime + oneSecondNs ≤ symbol.lastEventTime
  ahead : ∀ event ∈ history.drains.flatten, ∀ waiting ∈ symbol.pendingEvents, event.rank ≤ waiting.rank

/-- An earlier event ranks first. -/
private theorem rank_le_of_earlier {left right : Event} (earlier : left.eventTime < right.eventTime) :
    left.rank ≤ right.rank := by
  unfold Event.rank
  rw [Prod.Lex.toLex_le_toLex]
  exact .inl earlier

namespace EventHistory.Released

variable {β : Type} {history : EventHistory} {symbol : CoinbaseSymbol β} {env : Environment}
  {config : SymbolConfig}

/-- What arrives in time ranks behind what was released. -/
private theorem enqueueAll (released : history.Released symbol) (env : Environment) {events : List CoinbaseEvent}
    (inTime : ∀ event ∈ events, symbol.Awaits event.eventTime) (arrived : List (List Event)) :
    { history with arrived }.Released (symbol.enqueueAll env events) := by
  obtain ⟨fresh, pending, isFresh, -, -, -⟩ := symbol.enqueueAll_spec env events
  refine ⟨released.sorted, ?_, ?_⟩
  · exact fun event member => (released.past event member).trans (symbol.enqueueAll_lastEventTime env events)
  · intro event member waiting isWaiting
    rw [pending] at isWaiting
    rcases List.mem_append.mp isWaiting with old | new
    · exact released.ahead event member waiting old
    · have isEvent : waiting.toCoinbaseEvent ∈ events := by
        rw [← isFresh]
        exact List.mem_map_of_mem new
      have awaited := (inTime _ isEvent).1
      have gone := released.past event member
      exact rank_le_of_earlier (by omega)

/-- A drain that releases nothing early goes on where the last one stopped. -/
private theorem drain [OrderBookL3 β] (released : history.Released symbol) (force : Bool)
    (inTime : symbol.InTime env config history (.processSequencedEvents force)) :
    { history with drains := history.drains ++ [(symbol.drained env force).1] }.Released
      (symbol.processSequencedEvents env config force) := by
  have all : ((symbol.drained env force).1 ++ (symbol.drained env force).2).Perm symbol.pendingEvents :=
    PriorityQueue.drain_perm eventCompare_iff _ _
  have waited : ∀ event ∈ (symbol.drained env force).1, event ∈ symbol.pendingEvents :=
    fun event member => all.subset (List.mem_append_left _ member)
  have left : ∀ event ∈ (symbol.drained env force).2, event ∈ symbol.pendingEvents :=
    fun event member => all.subset (List.mem_append_right _ member)
  rw [symbol.processSequencedEvents_eq env config force]
  refine ⟨?_, ?_, ?_⟩
  · show ((history.drains ++ [_]).flatten).Pairwise _
    rw [List.flatten_concat, List.pairwise_append]
    exact ⟨released.sorted, PriorityQueue.drain_sorted eventCompare_iff _ _,
      fun event member waiting isWaiting => released.ahead event member waiting (waited waiting isWaiting)⟩
  · intro event member
    rw [List.flatten_concat] at member
    rcases List.mem_append.mp member with old | new
    · exact released.past event old
    · exact inTime event (waited event new) (PriorityQueue.drain_ready _ _ event new)
  · intro event member waiting isWaiting
    rw [List.flatten_concat] at member
    rcases List.mem_append.mp member with old | new
    · exact released.ahead event old waiting (left waiting isWaiting)
    · exact PriorityQueue.drain_least eventCompare_iff _ _ event new waiting isWaiting

theorem step [OrderBookL3 β] (released : history.Released symbol) {input : CoinbaseInput}
    (inTime : symbol.InTime env config history input) :
    (history.record symbol env config input).Released (symbol.step env config input) := by
  cases input with
  | level2Updates seqNum updates =>
      refine released.enqueueAll env ?_ _
      intro event member
      obtain ⟨update, isUpdate, same⟩ := mem_levelEvents member
      rw [same]
      exact inTime update isUpdate
  | marketTrades seqNum trades =>
      refine released.enqueueAll env ?_ _
      intro event member
      obtain ⟨trade, isTrade, mine, same⟩ := mem_tradeEvents member
      rw [same]
      exact inTime trade isTrade mine
  | level2Snapshot seqNum updates =>
      exact ⟨released.sorted, released.past, fun _ _ _ waiting => absurd waiting List.not_mem_nil⟩
  | processSequencedEvents force => exact released.drain force inTime
  | request input => exact ⟨released.sorted, released.past, released.ahead⟩

omit env config in
theorem empty (symbol : CoinbaseSymbol β) : EventHistory.empty.Released symbol := by
  refine ⟨.nil, ?_, ?_⟩
  · rintro _ ⟨⟩
  · rintro _ ⟨⟩

theorem run [OrderBookL3 β] (inputs : List CoinbaseInput) {state : CoinbaseSymbol β × EventHistory}
    (released : state.2.Released state.1) (taken : EventsTaken env config (InTime env config) state inputs) :
    (runEvents env config inputs state).2.Released (runEvents env config inputs state).1 := by
  induction inputs generalizing state with
  | nil => exact released
  | cons input rest ih =>
      obtain ⟨inTime, taken⟩ := taken
      exact @ih (_, _) (released.step inTime) taken

end EventHistory.Released

/-- While no event is late and none is released early, all that was ever dispatched went by
time, prints first, and newest number first, and nothing that waits should have gone before. -/
theorem Sequenced.released_sorted {β : Type} [OrderBookL3 β] {env : Environment} {config : SymbolConfig}
    {symbol : CoinbaseSymbol β} {history : EventHistory}
    (sequenced : Sequenced env config (InTime env config) symbol history) :
    (history.drains.flatten.Pairwise fun left right => left.rank ≤ right.rank) ∧
      ∀ event ∈ history.drains.flatten, ∀ waiting ∈ symbol.pendingEvents, event.rank ≤ waiting.rank := by
  suffices released : history.Released symbol from ⟨released.sorted, released.ahead⟩
  induction sequenced with
  | new pool publishOrderUpdates => exact .empty _
  | step earlier input inTime ih => exact ih.step inTime

/-- Two drains around an event that comes after the first of them, but belongs to the second. -/
theorem released_sorted_twoDrains :
    let env := Environment.counted fun _ => default
    let config := SymbolConfig.reference .none
    let offer (eventTime : Nat) : Level2Update :=
      { side := .sell, price := 100, newQuantity := 5, eventTime, newQuantity_nonneg := by decide }
    let inputs : List CoinbaseInput :=
      [.level2Updates 1 [offer 2000000000], .level2Updates 2 [offer 3500000000], .processSequencedEvents false,
        .level2Updates 3 [offer 2600000000], .level2Updates 4 [offer 5000000000], .processSequencedEvents false]
    let final := runEvents env config inputs (.new (fun _ => default) true, .empty)
    final.2.drains.map (fun drain => drain.map fun event => event.eventTime) = [[2000000000], [2600000000, 3500000000]] ∧
      (final.2.drains.flatten.Pairwise fun left right => left.rank ≤ right.rank) ∧
      ∀ event ∈ final.2.drains.flatten, ∀ waiting ∈ (final.1 : CoinbaseSymbol ReferenceBook).pendingEvents,
        event.rank ≤ waiting.rank := by
  intro env config offer inputs final
  have start : Sequenced env config (InTime env config) (.new (fun _ => default) true : CoinbaseSymbol ReferenceBook)
      .empty := .new _ _
  have taken : EventsTaken env config (InTime env config)
      ((.new (fun _ => default) true : CoinbaseSymbol ReferenceBook), EventHistory.empty) inputs :=
    ⟨by decide +kernel, by decide +kernel, by decide +kernel, by decide +kernel, by decide +kernel,
      by decide +kernel, trivial⟩
  exact ⟨by decide +kernel, Sequenced.released_sorted (start.run inputs taken)⟩

end SlickSim
