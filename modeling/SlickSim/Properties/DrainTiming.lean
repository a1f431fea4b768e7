import SlickSim.Exchange.Clock
import SlickSim.Properties.DispatchWatermark

/-!
# When a queue is drained

Every poll of the exchange runs `processSequencedEvents`. While no event is late, what the
feed does to an exchange does not depend on how often it was polled: polls more or fewer
differ in how often they read the clock, and in nothing else.
-/

set_option autoImplicit false

namespace SlickSim

namespace CoinbaseInput

/-- An input that brings events or dispatches some. -/
def FromFeed : CoinbaseInput → Prop
  | .level2Updates .. | .marketTrades .. | .processSequencedEvents _ => True
  | .level2Snapshot .. | .request _ => False

instance : DecidablePred FromFeed
  | .level2Updates .. | .marketTrades .. | .processSequencedEvents _ => .isTrue trivial
  | .level2Snapshot .. | .request _ => .isFalse id

def events (config : SymbolConfig) : CoinbaseInput → List CoinbaseEvent
  | .level2Updates seqNum updates => CoinbaseSymbol.levelEvents seqNum updates
  | .marketTrades seqNum trades => CoinbaseSymbol.tradeEvents config seqNum trades
  | .level2Snapshot .. | .processSequencedEvents _ | .request _ => []

end CoinbaseInput

/-- An event whatever the time it was received at. -/
def Event.undated (event : Event) : Event :=
  { event with receivedTime := 0 }

/-- The venue's time is a second past the event. -/
def Event.isPast (lastEventTime : Nat) (event : Event) : Bool :=
  decide (event.eventTime + oneSecondNs ≤ lastEventTime)

/-- Events under consecutive numbers. -/
def inSequence (next : Nat) (events : List CoinbaseEvent) : List Event :=
  (events.zipIdx next).map fun entry => { entry.1 with receivedTime := 0, sequenceId := entry.2 }

theorem inSequence_append (next : Nat) (earlier later : List CoinbaseEvent) :
    inSequence next (earlier ++ later) = inSequence next earlier ++ inSequence (next + earlier.length) later := by
  unfold inSequence
  rw [List.zipIdx_append, List.map_append]

theorem inSequence_sequenceIds (next : Nat) (events : List CoinbaseEvent) :
    (inSequence next events).map Event.sequenceId = List.range' next events.length := by
  unfold inSequence
  rw [List.map_map]
  exact List.zipIdx_map_snd next events

namespace Exchange

variable {β : Type} [OrderBookL3 β] (env : Environment) (config : SymbolConfig)

/-- Dispatches events one after another. -/
def dispatchAll (exchange : Exchange β) (events : List Event) : Exchange β :=
  (events.map Event.toCoinbaseEvent).foldl (fun exchange event => exchange.dispatchEvent env config event) exchange

theorem dispatchAll_append (exchange : Exchange β) (earlier later : List Event) :
    exchange.dispatchAll env config (earlier ++ later) =
      (exchange.dispatchAll env config earlier).dispatchAll env config later := by
  unfold dispatchAll
  rw [List.map_append, List.foldl_append]

theorem dispatchAll_atClock (exchange : Exchange β) (reads : Nat) (events : List Event) :
    (exchange.atClock reads).dispatchAll env config events =
      (exchange.dispatchAll env config events).atClock reads := by
  unfold dispatchAll
  induction events generalizing exchange with
  | nil => rfl
  | cons event rest ih =>
      rw [List.map_cons, List.foldl_cons, List.foldl_cons, dispatchEvent_atClock, ih]

/-- Events are dispatched alike whenever they were received. -/
theorem dispatchAll_undated (exchange : Exchange β) {first second : List Event}
    (same : first.map Event.undated = second.map Event.undated) :
    exchange.dispatchAll env config first = exchange.dispatchAll env config second := by
  have plain : ∀ events : List Event,
      (events.map Event.undated).map Event.toCoinbaseEvent = events.map Event.toCoinbaseEvent := by
    intro events
    rw [List.map_map]
    rfl
  unfold dispatchAll
  rw [← plain first, ← plain second, same]

end Exchange

/-! ## What a stretch of the feed does -/

/-- The events that wait with those that come. -/
def CoinbaseSymbol.expected {β : Type} (symbol : CoinbaseSymbol β) (arrived : List CoinbaseEvent) : List Event :=
  symbol.pendingEvents.map Event.undated ++ inSequence symbol.nextSequenceId arrived

/-- From one state to another such events were dispatched and such arrived. -/
structure CoinbaseSymbol.Fed {β : Type} [OrderBookL3 β] (env : Environment) (config : SymbolConfig)
    (before after : CoinbaseSymbol β) (dispatched : List Event) (arrived : List CoinbaseEvent) : Prop where
  exchange : ∃ reads, after.exchange = (before.exchange.dispatchAll env config dispatched).atClock reads
  pending : ((dispatched ++ after.pendingEvents).map Event.undated).Perm (before.expected arrived)
  latest : after.lastEventTime = (arrived.map CoinbaseEvent.eventTime).foldl max before.lastEventTime
  next : after.nextSequenceId = before.nextSequenceId + arrived.length

namespace CoinbaseSymbol.Fed

variable {β : Type} [OrderBookL3 β] {env : Environment} {config : SymbolConfig}
  {before between after : CoinbaseSymbol β} {dispatched later : List Event}
  {arrived fresh : List CoinbaseEvent}

protected theorem refl : Fed env config before before [] [] :=
  ⟨⟨before.exchange.book.globals.clockReads, rfl⟩, .of_eq (List.append_nil _).symm, rfl, rfl⟩

protected theorem trans (first : Fed env config before between dispatched arrived)
    (second : Fed env config between after later fresh) :
    Fed env config before after (dispatched ++ later) (arrived ++ fresh) := by
  refine ⟨?_, ?_, ?_, ?_⟩
  · obtain ⟨_, earlier⟩ := first.exchange
    obtain ⟨reads, rest⟩ := second.exchange
    refine ⟨reads, ?_⟩
    rw [rest, earlier, Exchange.dispatchAll_atClock, Exchange.dispatchAll_append]
    rfl
  · have moved := second.pending
    have kept := first.pending
    unfold expected at moved kept ⊢
    rw [first.next] at moved
    rw [List.map_append] at kept
    rw [inSequence_append, ← List.append_assoc, List.append_assoc dispatched, List.map_append]
    refine (moved.append_left _).trans ?_
    rw [← List.append_assoc]
    exact kept.append_right _
  · rw [second.latest, first.latest, List.map_append, List.foldl_append]
  · rw [second.next, first.next, List.length_append, Nat.add_assoc]

theorem enqueueAll (symbol : CoinbaseSymbol β) (events : List CoinbaseEvent) :
    Fed env config symbol (symbol.enqueueAll env events) [] events := by
  induction events generalizing symbol with
  | nil => exact .refl
  | cons event rest ih =>
      have one : Fed env config symbol (symbol.enqueue env event) [] [event] := by
        refine ⟨⟨symbol.exchange.book.globals.clockReads + 1, rfl⟩, ?_, rfl, rfl⟩
        show ((symbol.pendingEvents ++ [symbol.stamp env event]).map Event.undated).Perm _
        rw [List.map_append]
        rfl
      exact one.trans (ih (symbol.enqueue env event))

theorem drain (symbol : CoinbaseSymbol β) (force : Bool) :
    Fed env config symbol (symbol.processSequencedEvents env config force) (symbol.drained env force).1 [] := by
  have all : ((symbol.drained env force).1 ++ (symbol.drained env force).2).Perm symbol.pendingEvents :=
    PriorityQueue.drain_perm eventCompare_iff _ _
  rw [symbol.processSequencedEvents_eq env config force]
  refine ⟨⟨symbol.exchange.book.globals.clockReads + 1, ?_⟩, ?_, rfl, rfl⟩
  · exact symbol.exchange.dispatchAll_atClock env config _ _
  · exact (all.map Event.undated).trans (.of_eq (List.append_nil _).symm)

theorem step (symbol : CoinbaseSymbol β) (history : EventHistory) {input : CoinbaseInput}
    (fromFeed : input.FromFeed) :
    ∃ dispatched, Fed env config symbol (symbol.step env config input) dispatched (input.events config) ∧
      (history.record symbol env config input).drains.flatten = history.drains.flatten ++ dispatched := by
  cases input with
  | level2Updates seqNum updates => exact ⟨[], enqueueAll symbol _, (List.append_nil _).symm⟩
  | marketTrades seqNum trades => exact ⟨[], enqueueAll symbol _, (List.append_nil _).symm⟩
  | processSequencedEvents force => exact ⟨_, drain symbol force, List.flatten_concat⟩
  | level2Snapshot seqNum updates => exact fromFeed.elim
  | request input => exact fromFeed.elim

theorem run {inputs : List CoinbaseInput} (fromFeed : ∀ input ∈ inputs, input.FromFeed)
    (symbol : CoinbaseSymbol β) (history : EventHistory) :
    ∃ dispatched, Fed env config symbol (runEvents env config inputs (symbol, history)).1 dispatched
        (inputs.flatMap (CoinbaseInput.events config)) ∧
      (runEvents env config inputs (symbol, history)).2.drains.flatten = history.drains.flatten ++ dispatched := by
  induction inputs generalizing symbol history with
  | nil => exact ⟨[], .refl, (List.append_nil _).symm⟩
  | cons input rest ih =>
      obtain ⟨dispatched, first, noted⟩ := step symbol history (fromFeed input List.mem_cons_self)
      obtain ⟨later, remaining, more⟩ := ih (fun input member => fromFeed input (List.mem_cons_of_mem _ member))
        (symbol.step env config input) (history.record symbol env config input)
      refine ⟨dispatched ++ later, first.trans remaining, ?_⟩
      rw [← List.append_assoc, ← noted]
      exact more

end CoinbaseSymbol.Fed

/-! ## Two timings -/

section Timings

variable {β : Type} [OrderBookL3 β] {env : Environment} {config : SymbolConfig} {symbol : CoinbaseSymbol β}
  {history : EventHistory}

open CoinbaseSymbol

theorem Sequenced.accounts {allowed : CoinbaseSymbol β → EventHistory → CoinbaseInput → Prop}
    (sequenced : Sequenced env config allowed symbol history) : history.Accounts symbol := by
  induction sequenced with
  | new pool publishOrderUpdates =>
      refine ⟨.nil, ?_, .nil, ?_⟩
      · rintro _ ⟨⟩
      · rintro _ ⟨⟩
  | step earlier input permitted ih => exact ih.step env config input

omit [OrderBookL3 β] in
/-- The numbers of the events that wait and of those that come are all different. -/
theorem EventHistory.Accounts.sequenceIds_nodup (accounts : history.Accounts symbol) (events : List CoinbaseEvent) :
    ((symbol.expected events).map Event.sequenceId).Nodup := by
  have waiting : ∀ event ∈ symbol.pendingEvents, event ∈ history.arrived.flatten :=
    fun event member => accounts.once.subset (List.mem_append_right _ member)
  have old : (symbol.pendingEvents.map Event.sequenceId).Nodup := by
    have all := (accounts.once.map Event.sequenceId).nodup_iff.mpr accounts.distinct
    rw [List.map_append] at all
    exact all.of_append_right
  unfold CoinbaseSymbol.expected
  rw [List.map_append, inSequence_sequenceIds, List.map_map, List.nodup_append]
  refine ⟨old, List.nodup_range', ?_⟩
  intro number isOld other isNew same
  obtain ⟨event, member, rfl⟩ := List.mem_map.mp isOld
  have below := accounts.numbered event (waiting event member)
  obtain ⟨above, -⟩ := List.mem_range'_1.mp isNew
  have numbers : event.sequenceId = other := same
  omega

/-- What a poll leaves is not a second past yet. -/
theorem CoinbaseSymbol.waits_of_polled (symbol : CoinbaseSymbol β) :
    ∀ event ∈ (symbol.processSequencedEvents env config false).pendingEvents,
      (symbol.processSequencedEvents env config false).lastEventTime < event.eventTime + oneSecondNs := by
  rw [symbol.processSequencedEvents_eq env config false]
  intro event waits
  obtain ⟨best, isTop⟩ : ∃ best, PriorityQueue.top eventCompare (symbol.drained env false).2 = some best := by
    refine Option.ne_none_iff_exists'.mp ?_
    intro isNone
    rw [PriorityQueue.top_eq_none.mp isNone] at waits
    cases waits
  have held := PriorityQueue.drain_stops eventCompare_iff isTop
  have first : best.eventTime ≤ event.eventTime :=
    Prod.Lex.monotone_fst _ _ ((PriorityQueue.top_least eventCompare_iff isTop).2 event waits)
  show symbol.lastEventTime < event.eventTime + oneSecondNs
  suffices pending : symbol.lastEventTime < best.eventTime + oneSecondNs by omega
  have still : ¬ (0 < symbol.lastEventTime ∧ (best.eventTime + oneSecondNs) % 2 ^ 64 ≤ symbol.lastEventTime) := by
    intro ⟨started, past⟩
    have gap : eventReady false (symbol.exchange.book.currentTime env) symbol.lastEventTime best = true := by
      simp only [eventReady, decide_eq_true started, decide_eq_true past, Bool.and_self, Bool.or_true, Bool.true_or]
    rw [gap] at held
    cases held
  have wrapped := Nat.mod_le (best.eventTime + oneSecondNs) (2 ^ 64)
  have gap : 0 < oneSecondNs := by decide
  omega

/-- What ranks alike was enqueued alike. -/
private theorem sequenceId_eq {left right : Event} (first : left.rank ≤ right.rank)
    (last : right.rank ≤ left.rank) :
    left.sequenceId = right.sequenceId := by
  have same := le_antisymm first last
  unfold Event.rank at same
  exact (Prod.ext_iff.mp (Prod.ext_iff.mp same).2).2

/-- A list in two parts, of which one meets a condition and the other does not. -/
private theorem parts_perm {α : Type} {meets : α → Bool} {all kept dropped : List α}
    (parts : (kept ++ dropped).Perm all) (keeps : ∀ item ∈ kept, meets item = true)
    (drops : ∀ item ∈ dropped, meets item = false) :
    kept.Perm (all.filter meets) ∧ dropped.Perm (all.filter fun item => !meets item) := by
  constructor
  · refine List.Perm.trans (.of_eq ?_) (parts.filter meets)
    rw [List.filter_append, List.filter_eq_self.mpr keeps, List.filter_eq_nil_iff.mpr, List.append_nil]
    intro item member
    rw [drops item member]
    exact Bool.false_ne_true
  · refine List.Perm.trans (.of_eq ?_) (parts.filter fun item => !meets item)
    rw [List.filter_append, List.filter_eq_nil_iff.mpr, List.filter_eq_self.mpr, List.nil_append]
    · intro item member
      rw [drops item member]
      rfl
    · intro item member
      rw [keeps item member]
      exact Bool.false_ne_true

/-- A run of the feed with a poll at its end dispatches what is a second past, by rank. -/
theorem CoinbaseSymbol.served {inputs : List CoinbaseInput} (fromFeed : ∀ input ∈ inputs, input.FromFeed)
    (taken : EventsTaken env config (InTime env config) (symbol, .empty)
      (inputs ++ [.processSequencedEvents false])) :
    let arrived := inputs.flatMap (CoinbaseInput.events config)
    let after := (runEvents env config (inputs ++ [.processSequencedEvents false]) (symbol, .empty)).1
    ∃ served, Fed env config symbol after served arrived ∧
      (served.map Event.undated).Pairwise (fun left right => left.rank ≤ right.rank) ∧
      (served.map Event.undated).Perm ((symbol.expected arrived).filter (Event.isPast after.lastEventTime)) ∧
      (after.pendingEvents.map Event.undated).Perm
        ((symbol.expected arrived).filter fun event => !event.isPast after.lastEventTime) := by
  intro arrived after
  have polled : ∀ input ∈ inputs ++ [.processSequencedEvents false], input.FromFeed := by
    intro input member
    rcases List.mem_append.mp member with early | last
    · exact fromFeed input early
    · rw [List.mem_singleton.mp last]
      exact trivial
  obtain ⟨served, fed, noted⟩ : ∃ served, Fed env config symbol after served _ ∧ _ :=
    Fed.run polled symbol .empty
  have nothing : [CoinbaseInput.processSequencedEvents false].flatMap (CoinbaseInput.events config) = [] := rfl
  rw [List.flatMap_append, nothing, List.append_nil] at fed
  have released := (EventHistory.Released.empty symbol).run _ taken
  have gone := released.sorted
  rw [noted] at gone
  have past : ∀ event ∈ served.map Event.undated, event.isPast after.lastEventTime = true := by
    intro event member
    obtain ⟨original, isServed, rfl⟩ := List.mem_map.mp member
    refine decide_eq_true (released.past original ?_)
    rw [noted]
    exact isServed
  have last : after = (runEvents env config inputs (symbol, .empty)).1.processSequencedEvents env config false :=
    congrArg Prod.fst (List.foldl_concat ..)
  have waits : ∀ event ∈ after.pendingEvents.map Event.undated, event.isPast after.lastEventTime = false := by
    intro event member
    obtain ⟨original, isPending, rfl⟩ := List.mem_map.mp member
    rw [last] at isPending ⊢
    exact decide_eq_false (Nat.not_le.mpr (CoinbaseSymbol.waits_of_polled _ original isPending))
  have parts := fed.pending
  rw [List.map_append] at parts
  exact ⟨served, fed, List.pairwise_map.mpr gone, parts_perm parts past waits⟩

/-- What the feed does from any state on does not depend on when the queue was polled on the way:
two runs that bring the same events in the same order, none of them late and none released early,
and end with a poll, leave the same exchange, up to how often the clock was read, and the same
events waiting, up to when they were received. -/
theorem Sequenced.polls_unobservable {allowed : CoinbaseSymbol β → EventHistory → CoinbaseInput → Prop}
    (sequenced : Sequenced env config allowed symbol history) {first second : List CoinbaseInput}
    (firstFeed : ∀ input ∈ first, input.FromFeed) (secondFeed : ∀ input ∈ second, input.FromFeed)
    (same : first.flatMap (CoinbaseInput.events config) = second.flatMap (CoinbaseInput.events config))
    (firstTaken : EventsTaken env config (InTime env config) (symbol, .empty)
      (first ++ [.processSequencedEvents false]))
    (secondTaken : EventsTaken env config (InTime env config) (symbol, .empty)
      (second ++ [.processSequencedEvents false])) :
    let finish (inputs : List CoinbaseInput) : CoinbaseSymbol β :=
      (runEvents env config (inputs ++ [.processSequencedEvents false]) (symbol, .empty)).1
    (∃ reads, (finish second).exchange = (finish first).exchange.atClock reads) ∧
      ((finish second).pendingEvents.map Event.undated).Perm ((finish first).pendingEvents.map Event.undated) ∧
      (finish second).lastEventTime = (finish first).lastEventTime ∧
      (finish second).nextSequenceId = (finish first).nextSequenceId := by
  intro finish
  obtain ⟨firstServed, firstFed, firstSorted, firstPast, firstWaits⟩ := symbol.served firstFeed firstTaken
  obtain ⟨secondServed, secondFed, secondSorted, secondPast, secondWaits⟩ := symbol.served secondFeed secondTaken
  have latest : (finish second).lastEventTime = (finish first).lastEventTime := by
    rw [secondFed.latest, firstFed.latest, same]
  rw [← same, show (runEvents env config (second ++ _) (symbol, .empty)).1.lastEventTime = _ from latest]
    at secondPast secondWaits
  have distinct := sequenced.accounts.sequenceIds_nodup (first.flatMap (CoinbaseInput.events config))
  have agree : firstServed.map Event.undated = secondServed.map Event.undated := by
    refine List.Perm.eq_of_pairwise ?_ firstSorted secondSorted (firstPast.trans secondPast.symm)
    intro left right isLeft isRight before after
    have leftExpected := (List.mem_filter.mp (firstPast.subset isLeft)).1
    have rightExpected := (List.mem_filter.mp (secondPast.subset isRight)).1
    exact List.inj_on_of_nodup_map distinct leftExpected rightExpected (sequenceId_eq before after)
  refine ⟨?_, secondWaits.trans firstWaits.symm, latest, by rw [secondFed.next, firstFed.next, same]⟩
  obtain ⟨_, firstExchange⟩ := firstFed.exchange
  obtain ⟨reads, secondExchange⟩ := secondFed.exchange
  refine ⟨reads, ?_⟩
  rw [secondExchange, firstExchange, ← Exchange.dispatchAll_undated env config symbol.exchange agree]
  rfl

/-- Polled after every batch, each of which comes a second later than the one before, and
polled only at the end. -/
theorem polls_unobservable_everyBatch :
    let env := Environment.counted fun _ => default
    let config := SymbolConfig.reference .none
    let offer (eventTime qty : Nat) : Level2Update :=
      { side := .sell, price := 100, newQuantity := qty, eventTime, newQuantity_nonneg := Int.natCast_nonneg qty }
    let batch (seqNum : Nat) : CoinbaseInput := .level2Updates seqNum [offer (seqNum * oneSecondNs) (5 + seqNum)]
    let poll : CoinbaseInput := .processSequencedEvents false
    let start : CoinbaseSymbol ReferenceBook × EventHistory := (.new (fun _ => default) true, .empty)
    let finish (inputs : List CoinbaseInput) : CoinbaseSymbol ReferenceBook :=
      (runEvents env config (inputs ++ [poll]) start).1
    let once := [batch 1, batch 2, batch 3]
    let polled := [batch 1, poll, batch 2, poll, batch 3]
    (runEvents env config polled start).2.drains.map List.length = [0, 1] ∧
      (finish once).exchange.book.globals.clockReads < (finish polled).exchange.book.globals.clockReads ∧
      ∃ reads, (finish polled).exchange = (finish once).exchange.atClock reads := by
  intro env config offer batch poll start finish once polled
  have sequenced : Sequenced env config (fun _ _ _ => True) start.1 start.2 := .new _ _
  refine ⟨by decide +kernel, by decide +kernel, ?_⟩
  have onceTaken : EventsTaken env config (InTime env config) start (once ++ [poll]) :=
    ⟨by decide +kernel, by decide +kernel, by decide +kernel, by decide +kernel, trivial⟩
  have polledTaken : EventsTaken env config (InTime env config) start (polled ++ [poll]) :=
    ⟨by decide +kernel, by decide +kernel, by decide +kernel, by decide +kernel, by decide +kernel,
      by decide +kernel, trivial⟩
  exact (sequenced.polls_unobservable (by decide +kernel) (by decide +kernel) (by decide +kernel) onceTaken
    polledTaken).1

end Timings

end SlickSim
