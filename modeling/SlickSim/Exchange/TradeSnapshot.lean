import SlickSim.Exchange.Exchange
import SlickSim.Utils.RingBuffer

/-!
# The trade snapshot of a subscriber

`publishTradeSubscriptionResponse` writes the tape history into a frame it reserved
before it knew which trade goes into which block. The frame is the stretch of the
queue's memory from `snapshot->trades` on.
-/

set_option autoImplicit false

namespace SlickSim

theorem tradeHistoryCapacity_power :
    ∃ exponent < 64, (UInt64.ofNat tradeHistoryCapacity).toNat = 2 ^ exponent :=
  ⟨6, by decide, by decide⟩

instance : Inhabited MDTrade :=
  ⟨{ tradeId := 0, eventTime := 0, seqNum := 0, price := 0, qty := 0, flags := {}, side := .unknownSide }⟩

/-- `trade_history_` after these trades were recorded. -/
def tapeHistory (prints : List MDTrade) : RingBuffer MDTrade :=
  prints.foldl RingBuffer.push (.empty (UInt64.ofNat tradeHistoryCapacity) tradeHistoryCapacity_power)

def keptPrints (prints : List MDTrade) : List MDTrade :=
  prints.drop (prints.length + 1 - tradeHistoryCapacity)

theorem tapeHistory_stores (prints : List MDTrade) : (tapeHistory prints).Stores (keptPrints prints) := by
  have pushed := (RingBuffer.empty_stores (UInt64.ofNat tradeHistoryCapacity) tradeHistoryCapacity_power).pushes
    (by decide) prints
  rw [List.nil_append, List.length_nil, Nat.zero_add] at pushed
  exact pushed

/-! ## The frame -/

structure TradeCursor where
  cells : Nat → MDTrade
  next : Nat

namespace TradeCursor

def put (cursor : TradeCursor) (trade : MDTrade) : TradeCursor :=
  { cells := Function.update cursor.cells cursor.next trade, next := cursor.next + 1 }

theorem put_before (cursor : TradeCursor) (trades : List MDTrade) {cell : Nat} (before : cell < cursor.next) :
    (trades.foldl put cursor).cells cell = cursor.cells cell := by
  induction trades generalizing cursor with
  | nil => rfl
  | cons trade trades ih =>
      rw [List.foldl_cons, ih _ (Nat.lt_succ_of_lt before)]
      exact Function.update_of_ne before.ne _ _

theorem put_cells (cursor : TradeCursor) (trades : List MDTrade) (index : Nat) (inside : index < trades.length) :
    (trades.foldl put cursor).cells (cursor.next + index) = trades[index] := by
  induction trades generalizing cursor index with
  | nil => exact absurd inside (Nat.not_lt_zero _)
  | cons trade trades ih =>
      cases index with
      | zero =>
          rw [List.foldl_cons, put_before _ _ (Nat.lt_succ_self _)]
          exact Function.update_self _ _ _
      | succ index =>
          rw [← Nat.add_assoc, Nat.add_right_comm]
          exact ih (cursor.put trade) index (Nat.lt_of_succ_lt_succ inside)

theorem put_behind (cursor : TradeCursor) (trades : List MDTrade) {cell : Nat}
    (behind : cursor.next + trades.length ≤ cell) : (trades.foldl put cursor).cells cell = cursor.cells cell := by
  induction trades generalizing cursor with
  | nil => rfl
  | cons trade trades ih =>
      rw [List.length_cons] at behind
      rw [List.foldl_cons, ih _ (by change cursor.next + 1 + trades.length ≤ cell; omega)]
      exact Function.update_of_ne (by omega) _ _

end TradeCursor

/-! ## The response -/

/-- A trade is settled for a subscriber whose book snapshot is of that time. -/
def reflectedInBook (bookTime : Nat) (trade : MDTrade) : Bool :=
  !trade.flags.notInBook || trade.eventTime ≤ bookTime

/-- A turn of either loop, with the trade that `operator[]` points at. -/
def copyTrade (picks : MDTrade → Bool) (copied : TradeCursor × UInt32) : Option MDTrade → TradeCursor × UInt32
  | none => copied
  | some trade => if picks trade then (copied.1.put trade, copied.2 + 1) else copied

def copyTrades (history : RingBuffer MDTrade) (numTrades : UInt32) (picks : MDTrade → Bool)
    (cursor : TradeCursor) : TradeCursor × UInt32 :=
  (List.range numTrades.toNat).foldl
    (fun copied index => copyTrade picks copied (history.get (UInt64.ofNat index))) (cursor, 0)

structure TradeResponse where
  channel : UInt8
  reserved : UInt32
  numSnapshot : UInt32
  numUpdate : UInt32
  trades : Nat → MDTrade

/-- `Exchange::publishTradeSubscriptionResponse`. Without a book the time is zero. -/
def publishTradeSubscriptionResponse (history : RingBuffer MDTrade) (lastUpdateTime : Option Nat)
    (channel : UInt8) (memory : Nat → MDTrade) : TradeResponse :=
  let numTrades := history.size.toUInt32
  let bookTime := lastUpdateTime.getD 0
  let snapshot := copyTrades history numTrades (reflectedInBook bookTime) { cells := memory, next := 0 }
  let update := copyTrades history numTrades (fun trade => !reflectedInBook bookTime trade) snapshot.1
  { channel, reserved := numTrades, numSnapshot := snapshot.2, numUpdate := update.2, trades := update.1.cells }

/-- The trades that `encode_market_trades` walks through, in its order. -/
def encodedTrades (trades : Nat → MDTrade) (first : Nat) (numTrades : UInt32) (newestFirst : Bool) :
    List MDTrade :=
  (List.range numTrades.toNat).map fun index =>
    trades (first + if newestFirst then numTrades.toNat - 1 - index else index)

namespace TradeResponse

def snapshotTrades (response : TradeResponse) : List MDTrade :=
  encodedTrades response.trades 0 response.numSnapshot true

/-- The update message, of the trades behind the snapshot. There is none without trades. -/
def updateTrades (response : TradeResponse) : List MDTrade :=
  if response.numUpdate = 0 then []
  else encodedTrades response.trades response.numSnapshot.toNat response.numUpdate false

end TradeResponse

/-! ## What one walk copies -/

private theorem copy_fold (picks : MDTrade → Bool) (items : List MDTrade) (cursor : TradeCursor) (count : UInt32) :
    items.foldl (fun copied trade => copyTrade picks copied (some trade)) (cursor, count) =
      ((items.filter picks).foldl TradeCursor.put cursor, count + UInt32.ofNat (items.filter picks).length) := by
  induction items generalizing cursor count with
  | nil => exact congrArg (Prod.mk cursor) (UInt32.add_zero count).symm
  | cons trade items ih =>
      rw [List.foldl_cons, copyTrade]
      by_cases picked : picks trade
      · rw [if_pos picked, List.filter_cons_of_pos picked, ih, List.foldl_cons, List.length_cons, UInt32.ofNat_add,
          UInt32.add_assoc, UInt32.add_comm 1]
        rfl
      · rw [if_neg picked, List.filter_cons_of_neg picked, ih]

theorem copyTrades_eq {history : RingBuffer MDTrade} {items : List MDTrade} (stores : history.Stores items)
    {numTrades : UInt32} (all : numTrades.toNat = items.length) (picks : MDTrade → Bool) (cursor : TradeCursor) :
    copyTrades history numTrades picks cursor =
      ((items.filter picks).foldl TradeCursor.put cursor, UInt32.ofNat (items.filter picks).length) := by
  obtain ⟨first, stores⟩ := stores
  have small : items.length < 2 ^ 32 := all ▸ numTrades.toNat_lt
  have read : (List.range numTrades.toNat).map (fun index => history.get (UInt64.ofNat index)) = items.map some := by
    refine List.ext_getElem (by rw [List.length_map, List.length_map, List.length_range, all]) ?_
    intro index left right
    rw [List.length_map] at right
    rw [List.getElem_map, List.getElem_map, List.getElem_range, stores.get_eq, UInt64.toNat_ofNat',
      Nat.mod_eq_of_lt (by omega), List.getElem?_eq_getElem right]
  rw [copyTrades, ← @List.foldl_map _ _ _ (fun index => history.get (UInt64.ofNat index)) (copyTrade picks), read,
    List.foldl_map, copy_fold, UInt32.zero_add]

end SlickSim
