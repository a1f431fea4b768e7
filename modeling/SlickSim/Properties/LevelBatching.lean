import Mathlib.Data.List.SplitBy
import SlickSim.OrderBook.Reference
import SlickSim.Exchange.Frame

/-!
# Batches of level rows

Coinbase level updates are published in frames cut from `level_update_buffer_`. The
boundary is kept in `last_published_level_seq_num`, which lags one batch behind from
the second batch on.
-/

set_option autoImplicit false

namespace SlickSim

private theorem append_singleton_inj {α : Type} {left right : List α} {leftLast rightLast : α} :
    left ++ [leftLast] = right ++ [rightLast] ↔ left = right ∧ leftLast = rightLast := by
  rw [← List.concat_eq_append, ← List.concat_eq_append, List.concat_inj]

/-- One more element joins the last run or starts a run of its own. -/
private theorem splitBy_concat {α : Type} (related : α → α → Bool) {items : List α} {last : α}
    (isLast : items.getLast? = some last) (item : α) :
    ∃ runs run, items.splitBy related = runs ++ [run] ∧ run ≠ [] ∧
      (items ++ [item]).splitBy related =
        if related last item then runs ++ [run ++ [item]] else runs ++ [run] ++ [[item]] := by
  have occupied : items ≠ [] := by
    rintro rfl
    cases isLast
  have split : items.splitBy related ≠ [] := List.splitBy_ne_nil.mpr occupied
  refine ⟨_, _, (List.dropLast_append_getLast split).symm,
    List.ne_nil_of_mem_splitBy (List.getLast_mem _), ?_⟩
  cases joins : related last item with
  | false =>
      rw [if_neg Bool.false_ne_true, List.dropLast_append_getLast split,
        List.splitBy_append_cons [] (by rw [isLast]; rintro _ ⟨⟩; exact joins)]
      rfl
  | true =>
      rw [if_pos rfl]
      generalize isRun : (items.splitBy related).getLast split = run
      generalize isRuns : (items.splitBy related).dropLast = runs
      have whole : items.splitBy related = runs ++ [run] := by
        rw [← isRun, ← isRuns, List.dropLast_append_getLast split]
      obtain ⟨flat, nonempty, chains, apart⟩ := List.splitBy_eq_iff.mp whole
      have runSome : run ≠ [] := by
        rintro rfl
        exact nonempty (by simp)
      have runLast : run.getLast? = some last := by
        rw [flat] at isLast
        simpa [List.getLast?_append, List.getLast?_eq_some_getLast runSome] using isLast
      refine List.splitBy_eq_iff.mpr ⟨?_, ?_, ?_, ?_⟩
      · simp [flat]
      · intro empty
        rcases List.mem_append.mp empty with inside | inside
        · exact nonempty (List.mem_append_left _ inside)
        · simp at inside
      · intro other member
        rcases List.mem_append.mp member with inside | inside
        · exact chains other (List.mem_append_left _ inside)
        · obtain rfl := List.mem_singleton.mp inside
          refine List.IsChain.append (chains run (by simp)) (List.isChain_singleton _) ?_
          rw [runLast]
          rintro _ ⟨⟩ _ ⟨⟩
          exact joins
      · rw [List.isChain_append] at apart ⊢
        obtain ⟨left, -, between⟩ := apart
        refine ⟨left, List.isChain_singleton _, ?_⟩
        rintro before isBefore _ ⟨⟩
        obtain ⟨ha, hb, cut⟩ := between before isBefore run rfl
        refine ⟨ha, by simp, ?_⟩
        rw [List.head_append_of_ne_nil]
        exact cut

/-- The rows waiting in `level_update_buffer_` and the boundary beside them. -/
structure LevelBatch where
  lastPublished : Nat
  buffer : List MDLevel

namespace LevelBatch

def fresh : LevelBatch := ⟨0, []⟩

/-- The sequence a row is compared with: its own while none is set. -/
def boundary (batch : LevelBatch) (row : MDLevel) : Nat :=
  if batch.lastPublished = 0 then row.seqNum else batch.lastPublished

/-- What one more row publishes, and what it leaves. -/
def push (batch : LevelBatch) (row : MDLevel) : List (List MDLevel) × LevelBatch :=
  match batch.buffer.getLast? with
  | none => ([], ⟨batch.boundary row, batch.buffer ++ [row]⟩)
  | some last =>
      if row.seqNum ≠ batch.boundary row then ([batch.buffer], ⟨last.seqNum, [row]⟩)
      else ([], ⟨batch.boundary row, batch.buffer ++ [row]⟩)

/-- The frames a list of rows publishes, and what is left of it. -/
def pushAll (batch : LevelBatch) : List MDLevel → List (List MDLevel) × LevelBatch
  | [] => ([], batch)
  | row :: rest =>
      let (frames, batch) := batch.push row
      let (later, batch) := batch.pushAll rest
      (frames ++ later, batch)

def waiting (batch : LevelBatch) : List (List MDLevel) :=
  if batch.buffer = [] then [] else [batch.buffer]

end LevelBatch

def sameBatch (left right : MDLevel) : Bool :=
  left.seqNum == right.seqNum

/-- A sequence number may follow two others without a batch being split or joined to
the next. After a change it differs from both, unless the one before the change is 0,
which the boundary reads as unset. -/
def MayFollow (first second next : Nat) : Prop :=
  if first = second then next = second ∨ second ≠ 0
  else if next = second then first = 0
  else first ≠ 0 ∧ next ≠ first

/-- No batch is split and no two share a frame. -/
def KeepsBatches (seqNums : List Nat) : Prop :=
  (∀ first second, [first, second] <+: seqNums → second = first ∨ first ≠ 0) ∧
    ∀ first second next, [first, second, next] <:+: seqNums → MayFollow first second next

namespace LevelBatch

theorem pushAll_concat (batch : LevelBatch) (rows : List MDLevel) (row : MDLevel) :
    batch.pushAll (rows ++ [row]) =
      let (frames, batch) := batch.pushAll rows
      let (later, batch) := batch.push row
      (frames ++ later, batch) := by
  induction rows generalizing batch with
  | nil => simp [pushAll]
  | cons head rest ih => simp [pushAll, ih]

theorem push_getLast (batch : LevelBatch) (row : MDLevel) :
    (batch.push row).2.buffer.getLast? = some row := by
  unfold push
  split
  · exact List.getLast?_concat
  · split
    · rfl
    · exact List.getLast?_concat

/-- The last row of a list is the last one buffered. -/
theorem pushAll_getLast (rows : List MDLevel) :
    (fresh.pushAll rows).2.buffer.getLast? = rows.getLast? := by
  induction rows using List.reverseRecOn with
  | nil => rfl
  | append_singleton rows row _ =>
      rw [pushAll_concat, List.getLast?_concat]
      exact push_getLast _ row

/-- The frames published and the rows still buffered are the batches. -/
def Batched (rows : List MDLevel) : Prop :=
  (fresh.pushAll rows).1 ++ (fresh.pushAll rows).2.waiting = rows.splitBy sameBatch

/-- A row keeps the batches exactly when it publishes the buffer if and only if it
starts a batch. -/
private theorem batched_concat {rows : List MDLevel} {last : MDLevel} (isLast : rows.getLast? = some last)
    (row : MDLevel) :
    Batched (rows ++ [row]) ↔ Batched rows ∧
      (row.seqNum ≠ (fresh.pushAll rows).2.boundary row ↔ row.seqNum ≠ last.seqNum) := by
  obtain ⟨runs, run, before, nonempty, after⟩ := splitBy_concat sameBatch isLast row
  have buffered : (fresh.pushAll rows).2.buffer.getLast? = some last := (pushAll_getLast rows).trans isLast
  have occupied : (fresh.pushAll rows).2.buffer ≠ [] := by
    intro empty
    rw [empty] at buffered
    cases buffered
  have batched : Batched rows ↔ (fresh.pushAll rows).1 = runs ∧ (fresh.pushAll rows).2.buffer = run := by
    unfold Batched waiting
    rw [before, if_neg occupied]
    exact append_singleton_inj
  rw [batched]
  unfold Batched
  rw [pushAll_concat, after]
  generalize fresh.pushAll rows = pushed at buffered occupied ⊢
  obtain ⟨frames, batch⟩ := pushed
  dsimp only at buffered occupied ⊢
  unfold push
  rw [buffered]
  dsimp only
  have related : sameBatch last row = decide (row.seqNum = last.seqNum) := by
    unfold sameBatch
    rw [beq_eq_decide, decide_eq_decide, eq_comm]
  rw [related]
  have alone : [row] ≠ [] := by simp
  have longer : batch.buffer ++ [row] ≠ [] := by simp
  by_cases cuts : row.seqNum = batch.boundary row
  · rw [if_neg (not_not_intro cuts)]
    simp only [waiting, if_neg longer, List.append_nil]
    by_cases same : row.seqNum = last.seqNum
    · rw [decide_eq_true same, if_pos rfl, append_singleton_inj, List.append_left_inj]
      simp only [same, ← cuts, ne_eq, not_true_eq_false, iff_self, and_true]
    · rw [decide_eq_false same, if_neg Bool.false_ne_true, append_singleton_inj]
      refine iff_of_false ?_ ?_
      · rintro ⟨-, shared⟩
        exact occupied (List.append_left_eq_self.mp shared)
      · rintro ⟨-, wrong⟩
        exact wrong.mpr same cuts
  · rw [if_pos cuts]
    simp only [waiting, if_neg alone]
    by_cases same : row.seqNum = last.seqNum
    · rw [decide_eq_true same, if_pos rfl, append_singleton_inj]
      refine iff_of_false ?_ ?_
      · rintro ⟨-, split⟩
        exact nonempty (List.append_left_eq_self.mp split.symm)
      · rintro ⟨-, wrong⟩
        exact wrong.mp cuts same
    · rw [decide_eq_false same, if_neg Bool.false_ne_true, append_singleton_inj, append_singleton_inj]
      simp only [cuts, same, ne_eq, not_false_eq_true, iff_self, and_true]

/-- The boundary while the batches have been kept: the sequence of the row before the
last, if there is one. -/
private theorem boundary_of_batched {rows : List MDLevel} {row : MDLevel}
    (batched : Batched (rows ++ [row])) :
    (fresh.pushAll (rows ++ [row])).2.lastPublished = (rows.getLast?.getD row).seqNum := by
  rw [pushAll_concat]
  dsimp only
  unfold push
  rw [pushAll_getLast]
  cases isLast : rows.getLast? with
  | none =>
      obtain rfl := List.getLast?_eq_none_iff.mp isLast
      rfl
  | some last =>
      obtain ⟨-, exact⟩ := (batched_concat isLast row).mp batched
      dsimp only
      by_cases cuts : row.seqNum = (fresh.pushAll rows).2.boundary row
      · rw [if_neg (not_not_intro cuts)]
        have same : row.seqNum = last.seqNum := by
          by_contra differs
          exact exact.mpr differs cuts
        exact cuts.symm.trans same
      · rw [if_pos cuts]
        rfl

private theorem keepsBatches_pair {first next : Nat} :
    KeepsBatches [first, next] ↔ next = first ∨ first ≠ 0 := by
  constructor
  · intro keeps
    exact keeps.1 first next (List.prefix_refl _)
  · intro may
    refine ⟨?_, ?_⟩
    · intro left right isPrefix
      obtain ⟨rfl, rfl⟩ : left = first ∧ right = next := by simpa using isPrefix
      exact may
    · intro left middle right isInfix
      have short := isInfix.length_le
      simp at short

private theorem keepsBatches_of_shorter {shorter longer : List Nat} (keeps : KeepsBatches longer)
    (isPrefix : shorter <+: longer) : KeepsBatches shorter := by
  refine ⟨?_, ?_⟩
  · intro left right inside
    exact keeps.1 left right (inside.trans isPrefix)
  · intro left middle right inside
    exact keeps.2 left middle right (inside.trans isPrefix.isInfix)

private theorem keepsBatches_concat {seqNums : List Nat} {first second next : Nat} :
    KeepsBatches (seqNums ++ [first, second] ++ [next]) ↔
      KeepsBatches (seqNums ++ [first, second]) ∧ MayFollow first second next := by
  constructor
  · intro keeps
    refine ⟨keepsBatches_of_shorter keeps (List.prefix_append _ _), ?_⟩
    refine keeps.2 first second next (List.IsSuffix.isInfix ⟨seqNums, ?_⟩)
    simp
  · rintro ⟨⟨start, windows⟩, may⟩
    refine ⟨?_, ?_⟩
    · intro left right isPrefix
      rcases List.prefix_concat_iff.mp isPrefix with whole | inside
      · have lengths := congrArg List.length whole
        simp at lengths
      · exact start left right inside
    · intro left middle right isInfix
      rcases List.infix_concat_iff.mp isInfix with atEnd | inside
      · obtain ⟨rfl, rfl, rfl⟩ : left = first ∧ middle = second ∧ right = next := by
          obtain ⟨front, same⟩ := atEnd
          have parts := List.append_inj' (show front ++ [left, middle, right] =
            seqNums ++ [first, second, next] by simpa using same) rfl
          simpa using parts.2
        exact may
      · exact windows left middle right inside

/-- A boundary marks the start of a batch exactly when the sequence may follow. -/
private theorem marks_iff {boundary last next : Nat} :
    (next ≠ (if boundary = 0 then next else boundary) ↔ next ≠ last) ↔ MayFollow boundary last next := by
  unfold MayFollow
  by_cases unset : boundary = 0
  · subst unset
    by_cases same : 0 = last
    · subst same
      simp
    · simp [same]
  · by_cases same : boundary = last
    · subst same
      simp [unset]
    · by_cases joins : next = last
      · subst joins
        simp [unset, same, Ne.symm same]
      · simp [unset, same, joins]

/-- The batches are kept exactly when the sequence numbers allow it. -/
theorem batched_iff (rows : List MDLevel) : Batched rows ↔ KeepsBatches (rows.map MDLevel.seqNum) := by
  have short : ∀ seqNums : List Nat, seqNums.length < 2 → KeepsBatches seqNums := by
    intro seqNums short
    refine ⟨?_, ?_⟩
    · intro left right isPrefix
      have fits := isPrefix.length_le
      simp only [List.length_cons, List.length_nil] at fits
      omega
    · intro left middle right isInfix
      have fits := isInfix.length_le
      simp only [List.length_cons, List.length_nil] at fits
      omega
  induction rows using List.reverseRecOn with
  | nil => exact iff_of_true rfl (short _ (by simp))
  | append_singleton rows row ih =>
      rcases List.eq_nil_or_concat' rows with rfl | ⟨earlier, last, rfl⟩
      · exact iff_of_true rfl (short _ (by simp))
      have kept : Batched (earlier ++ [last]) ↔ KeepsBatches ((earlier ++ [last]).map MDLevel.seqNum) := ih
      rw [batched_concat List.getLast?_concat, kept]
      by_cases keeps : KeepsBatches ((earlier ++ [last]).map MDLevel.seqNum)
      · have isBoundary := boundary_of_batched (kept.mpr keeps)
        unfold boundary
        rw [isBoundary, and_iff_right keeps, marks_iff]
        rcases List.eq_nil_or_concat' earlier with rfl | ⟨front, previous, rfl⟩
        · show MayFollow last.seqNum last.seqNum row.seqNum ↔ KeepsBatches [last.seqNum, row.seqNum]
          rw [keepsBatches_pair]
          unfold MayFollow
          rw [if_pos rfl]
        · rw [List.getLast?_concat]
          have whole : KeepsBatches (List.map MDLevel.seqNum front ++ [previous.seqNum, last.seqNum]) := by
            simpa using keeps
          have concat := @keepsBatches_concat (front.map MDLevel.seqNum) previous.seqNum last.seqNum
            row.seqNum
          rw [and_iff_right whole] at concat
          rw [Option.getD_some, ← concat]
          simp
      · refine iff_of_false (fun both => keeps both.1) fun longer => keeps (keepsBatches_of_shorter longer ?_)
        exact ⟨[row.seqNum], by simp⟩

end LevelBatch

/-- A level update that offers one unit at a price. -/
def Input.offer (seqNum : Nat) (price : Int) : Input :=
  .coinbaseEvent
    { type := .levelUpdate, eventTime := 1, seqNum, price, qty := 1, side := .sell, flags := {}
      qty_nonneg := by decide }

namespace Exchange

variable {β : Type} [OrderBookL3 β] (exchange : Exchange β) (env : Environment) (config : SymbolConfig)

def levelBatch (exchange : Exchange β) : LevelBatch :=
  ⟨exchange.coinbase.lastPublishedLevelSeqNum, exchange.coinbase.levelUpdateBuffer⟩

/-- The event is a level update that is not stale when it is dispatched. -/
def Buffers (event : CoinbaseEvent) : Prop :=
  event.type = .levelUpdate ∧ ¬ event.eventTime < exchange.book.lastUpdateTime

instance (exchange : Exchange β) (event : CoinbaseEvent) : Decidable (exchange.Buffers event) :=
  inferInstanceAs (Decidable (_ ∧ ¬ _))

/-- Whether the level of an event is there, where it is, and the exchange once the
event's liquidity is in the book: all that is left to do is to buffer its row. -/
def levelPlaced (event : CoinbaseEvent) : Bool × Nat × MDUpdateAction × Exchange β :=
  let (bookSeqNum, exchange) := exchange.nextBookSeqNum
  let bookSide := toBookSide event.side
  let hadLevel := (OrderBookL3.getLevel exchange.book.l3 bookSide event.price).isSome
  let index := OrderBookL3.levelIndex exchange.book.l3 bookSide event.price
  let (action, exchange) := exchange.placeVenueLevel env config event bookSeqNum hadLevel
  (hadLevel, index, action, exchange.onBook fun book => book.setLastUpdate event.eventTime event.seqNum)

theorem dispatchEvent_buffers {event : CoinbaseEvent} (buffers : exchange.Buffers event) :
    exchange.dispatchEvent env config event =
      let (hadLevel, index, action, placed) := exchange.levelPlaced env config event
      placed.bufferLevelRow event hadLevel index action := by
  obtain ⟨isLevel, current⟩ := buffers
  unfold dispatchEvent
  dsimp only
  rw [isLevel]
  show dispatchLevelUpdate _ env config event _ = _
  unfold dispatchLevelUpdate
  rw [if_neg (show ¬ event.eventTime < exchange.nextBookSeqNum.2.book.lastUpdateTime from current)]
  rfl

/-- The level updates that were dispatched and not stale, in order. -/
def levelEvents (exchange : Exchange β) (env : Environment) (config : SymbolConfig) :
    List Input → List CoinbaseEvent
  | [] => []
  | input :: rest =>
      let later := (exchange.step env config input).levelEvents env config rest
      match input with
      | .coinbaseEvent event => if exchange.Buffers event then event :: later else later
      | _ => later

def levelRows (exchange : Exchange β) (env : Environment) (config : SymbolConfig) :
    List Input → List MDLevel
  | [] => []
  | input :: rest =>
      let after := exchange.step env config input
      let later := after.levelRows env config rest
      match input with
      | .coinbaseEvent event =>
          if exchange.Buffers event then after.coinbase.levelUpdateBuffer.getLast?.toList ++ later
          else later
      | _ => later

/-- What they published from the buffer, after the book took them. -/
def bufferFrames (exchange : Exchange β) (env : Environment) (config : SymbolConfig) :
    List Input → List MDFrame
  | [] => []
  | input :: rest =>
      let after := exchange.step env config input
      let later := after.bufferFrames env config rest
      match input with
      | .coinbaseEvent event =>
          if exchange.Buffers event then
            after.mdQueue.drop (exchange.levelPlaced env config event).2.2.2.mdQueue.length ++ later
          else later
      | _ => later

/-- The row of an event: its level as the book holds it. -/
def levelRow (event : CoinbaseEvent) (hadLevel : Bool) (index : Nat) (action : MDUpdateAction) : MDLevel :=
  let newLevel := OrderBookL3.getLevel exchange.book.l3 (toBookSide event.side) event.price
  { eventTime := event.eventTime, seqNum := event.seqNum, price := event.price
    qty := (newLevel.map PriceLevelL3.totalQuantity).getD 0
    numOrders := (newLevel.map fun level => level.orders.length).getD 0
    levelIndex :=
      if hadLevel = false ∧ newLevel.isSome = true then
        OrderBookL3.levelIndex exchange.book.l3 (toBookSide event.side) event.price
      else index
    updateAction := if newLevel.isSome then action else .delete
    flags := event.flags, side := event.side, moment := exchange.book.levelTrail.length }

theorem bufferLevelRow_push (event : CoinbaseEvent) (hadLevel : Bool) (index : Nat)
    (action : MDUpdateAction) :
    let row := exchange.levelRow event hadLevel index action
    (exchange.bufferLevelRow event hadLevel index action).levelBatch = (exchange.levelBatch.push row).2 ∧
      (exchange.bufferLevelRow event hadLevel index action).mdQueue =
        exchange.mdQueue ++ (exchange.levelBatch.push row).1.map MDFrame.level := by
  intro row
  have rowSeq : row.seqNum = event.seqNum := rfl
  have isBoundary : exchange.levelBatch.boundary row =
      if exchange.coinbase.lastPublishedLevelSeqNum = 0 then event.seqNum
      else exchange.coinbase.lastPublishedLevelSeqNum := rfl
  unfold bufferLevelRow LevelBatch.push
  rw [show exchange.levelBatch.buffer = exchange.coinbase.levelUpdateBuffer from rfl, isBoundary, rowSeq]
  dsimp only
  generalize (if exchange.coinbase.lastPublishedLevelSeqNum = 0 then _ else _) = boundary
  cases waits : exchange.coinbase.levelUpdateBuffer.getLast? with
  | none => exact ⟨rfl, (List.append_nil _).symm⟩
  | some last =>
      dsimp only
      by_cases cuts : event.seqNum = boundary
      · simp only [cuts, ne_eq, not_true_eq_false, if_false]
        refine ⟨?_, (List.append_nil _).symm⟩
        rw [← cuts]
        rfl
      · simp only [ne_eq, cuts, not_false_eq_true, if_true]
        exact ⟨rfl, rfl⟩

/-- A level update pushes one row, which carries its sequence. -/
private theorem dispatchEvent_push {event : CoinbaseEvent} (buffers : exchange.Buffers event) :
    ∃ row, row.seqNum = event.seqNum ∧
      (exchange.dispatchEvent env config event).levelBatch = (exchange.levelBatch.push row).2 ∧
      (exchange.dispatchEvent env config event).mdQueue.drop
          (exchange.levelPlaced env config event).2.2.2.mdQueue.length =
        (exchange.levelBatch.push row).1.map MDFrame.level := by
  have untouched : (exchange.levelPlaced env config event).2.2.2.levelBatch = exchange.levelBatch := by
    have same : (exchange.levelPlaced env config event).2.2.2.coinbase =
        exchange.nextBookSeqNum.2.coinbase := by
      unfold levelPlaced
      simp
    unfold levelBatch
    rw [same]
    rfl
  rw [exchange.dispatchEvent_buffers env config buffers]
  generalize exchange.levelPlaced env config event = placing at untouched ⊢
  obtain ⟨hadLevel, index, action, placed⟩ := placing
  obtain ⟨batch, queue⟩ := bufferLevelRow_push placed event hadLevel index action
  rw [show placed.levelBatch = _ from untouched] at batch queue
  refine ⟨placed.levelRow event hadLevel index action, rfl, batch, ?_⟩
  dsimp only
  rw [queue, List.drop_left]

private theorem step_levelBatch {input : Input}
    (other : ∀ event, input = .coinbaseEvent event → ¬ exchange.Buffers event)
    (notSnapshot : ∀ seqNum updates, input ≠ .level2Snapshot seqNum updates) :
    (exchange.step env config input).levelBatch = exchange.levelBatch := by
  by_cases isEvent : ∃ event, input = .coinbaseEvent event
  · obtain ⟨event, rfl⟩ := isEvent
    have unbuffered := other event rfl
    show (exchange.dispatchEvent env config event).levelBatch = exchange.levelBatch
    unfold dispatchEvent
    dsimp only
    split <;> rename_i isType
    · have stale : event.eventTime < exchange.nextBookSeqNum.2.book.lastUpdateTime := by
        by_contra current
        exact unbuffered ⟨isType, current⟩
      unfold dispatchLevelUpdate
      rw [if_pos stale]
      rfl
    · unfold levelBatch dispatchTrade
      simp [nextBookSeqNum]
  · have same := exchange.step_coinbase env config (fun event isEvent' => isEvent ⟨event, isEvent'⟩)
      notSnapshot
    unfold levelBatch
    rw [same]

private theorem run_pushAll {inputs : List Input}
    (noSnapshot : ∀ seqNum updates, Input.level2Snapshot seqNum updates ∉ inputs) :
    (exchange.run env config inputs).levelBatch =
        (exchange.levelBatch.pushAll (exchange.levelRows env config inputs)).2 ∧
      exchange.bufferFrames env config inputs =
        (exchange.levelBatch.pushAll (exchange.levelRows env config inputs)).1.map MDFrame.level ∧
      (exchange.levelRows env config inputs).map MDLevel.seqNum =
        (exchange.levelEvents env config inputs).map CoinbaseEvent.seqNum := by
  induction inputs generalizing exchange with
  | nil => exact ⟨rfl, rfl, rfl⟩
  | cons input rest ih =>
      have later := ih (exchange.step env config input) fun seqNum updates member =>
        noSnapshot seqNum updates (List.mem_cons_of_mem _ member)
      obtain ⟨batch, frames, seqNums⟩ := later
      by_cases buffers : ∃ event, input = .coinbaseEvent event ∧ exchange.Buffers event
      · obtain ⟨event, rfl, buffers⟩ := buffers
        obtain ⟨row, rowSeq, pushed, published⟩ := exchange.dispatchEvent_push env config buffers
        have isBatch : (exchange.step env config (.coinbaseEvent event)).levelBatch =
            (exchange.levelBatch.push row).2 := pushed
        have isRow : (exchange.step env config (.coinbaseEvent event)).coinbase.levelUpdateBuffer.getLast? =
            some row := by
          have last := LevelBatch.push_getLast exchange.levelBatch row
          rw [← isBatch] at last
          exact last
        rw [isBatch] at batch frames
        simp only [levelRows, levelEvents, bufferFrames, if_pos buffers, isRow, Option.toList_some,
          List.singleton_append, List.map_cons, LevelBatch.pushAll, List.map_append, frames, seqNums,
          rowSeq, and_true]
        refine ⟨batch, ?_⟩
        exact congrArg (· ++ _) published
      · have other : ∀ event, input = .coinbaseEvent event → ¬ exchange.Buffers event :=
          fun event isEvent buffered => buffers ⟨event, isEvent, buffered⟩
        have same := exchange.step_levelBatch env config other fun seqNum updates isSnapshot =>
          noSnapshot seqNum updates (isSnapshot ▸ List.mem_cons_self)
        rw [same] at batch frames
        have rows : exchange.levelRows env config (input :: rest) =
            (exchange.step env config input).levelRows env config rest := by
          cases input <;> simp only [levelRows]
          rw [if_neg (other _ rfl)]
        have events : exchange.levelEvents env config (input :: rest) =
            (exchange.step env config input).levelEvents env config rest := by
          cases input <;> simp only [levelEvents]
          rw [if_neg (other _ rfl)]
        have published : exchange.bufferFrames env config (input :: rest) =
            (exchange.step env config input).bufferFrames env config rest := by
          cases input <;> simp only [bufferFrames]
          rw [if_neg (other _ rfl)]
        rw [rows, events, published]
        exact ⟨batch, frames, seqNums⟩

/-- From an empty buffer on, the frames published from it and what waits in it are the
venue's batches exactly when the sequence numbers allow it. -/
theorem bufferFrames_batches_iff (fresh : exchange.levelBatch = .fresh) {inputs : List Input}
    (noSnapshot : ∀ seqNum updates, Input.level2Snapshot seqNum updates ∉ inputs) :
    (exchange.levelRows env config inputs).map MDLevel.seqNum =
        (exchange.levelEvents env config inputs).map CoinbaseEvent.seqNum ∧
      (exchange.bufferFrames env config inputs ++
          (exchange.run env config inputs).levelBatch.waiting.map MDFrame.level =
          ((exchange.levelRows env config inputs).splitBy sameBatch).map MDFrame.level ↔
        KeepsBatches ((exchange.levelEvents env config inputs).map CoinbaseEvent.seqNum)) := by
  obtain ⟨batch, frames, seqNums⟩ := exchange.run_pushAll env config noSnapshot
  refine ⟨seqNums, ?_⟩
  rw [fresh] at batch frames
  rw [batch, frames, ← List.map_append, ← seqNums, ← LevelBatch.batched_iff]
  unfold LevelBatch.Batched
  refine ⟨fun same => ?_, fun same => congrArg _ same⟩
  exact List.map_injective_iff.mpr (fun _ _ => MDFrame.level.inj) same

/-- Offers at three prices under the given sequence numbers. -/
private def threeOffers (first second third : Nat) : List Input :=
  [.offer first 100, .offer second 101, .offer third 102]

/-- The first batch may have any length. -/
theorem bufferFrames_longFirstBatch :
    let exchange := (Exchange.new (fun _ => default) true : Exchange ReferenceBook)
    let env := Environment.counted fun _ => default
    let config := SymbolConfig.reference .none
    exchange.bufferFrames env config (threeOffers 1 1 2) ++
      (exchange.run env config (threeOffers 1 1 2)).levelBatch.waiting.map MDFrame.level =
      ((exchange.levelRows env config (threeOffers 1 1 2)).splitBy sameBatch).map MDFrame.level := by
  intro exchange env config
  have noSnapshot : ∀ seqNum updates, Input.level2Snapshot seqNum updates ∉ threeOffers 1 1 2 := by
    simp [threeOffers, Input.offer]
  have events : (exchange.levelEvents env config (threeOffers 1 1 2)).map CoinbaseEvent.seqNum =
      [1, 1, 2] := by decide +kernel
  refine (exchange.bufferFrames_batches_iff env config rfl noSnapshot).2.mpr ?_
  rw [events]
  refine ⟨?_, ?_⟩
  · intro first second isPrefix
    obtain ⟨rfl, rfl⟩ : first = 1 ∧ second = 1 := by simpa using isPrefix
    exact .inl rfl
  · intro first second next isInfix
    obtain ⟨rfl, rfl, rfl⟩ : first = 1 ∧ second = 1 ∧ next = 2 := by
      simpa using isInfix.eq_of_length rfl
    exact .inr (by decide)

/-- A second batch of two rows is published in two frames. -/
theorem bufferFrames_splitSecondBatch :
    let exchange := (Exchange.new (fun _ => default) true : Exchange ReferenceBook)
    let env := Environment.counted fun _ => default
    let config := SymbolConfig.reference .none
    exchange.levelBatch = .fresh ∧
      exchange.bufferFrames env config (threeOffers 1 2 2) ++
        (exchange.run env config (threeOffers 1 2 2)).levelBatch.waiting.map MDFrame.level ≠
        ((exchange.levelRows env config (threeOffers 1 2 2)).splitBy sameBatch).map MDFrame.level := by
  exact ⟨rfl, by decide +kernel⟩

end Exchange

end SlickSim
