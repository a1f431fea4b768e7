import SlickSim.Exchange.TradeSnapshot

/-!
# What a trade subscriber is sent first

Whatever the mix of trades in the history, the response holds each of them once: the
settled ones, then the others, both in the order of the history.
-/

set_option autoImplicit false

namespace SlickSim

/-- The response is the history, split by what the subscriber's book reflects. -/
structure TradeResponse.Splits (response : TradeResponse) (history : List MDTrade) (reflected : MDTrade → Bool)
    (memory : Nat → MDTrade) : Prop where
  /-- The frame was sized for the history, and its two blocks fill it. -/
  reserved : response.reserved.toNat = history.length
  filled : response.numSnapshot.toNat + response.numUpdate.toNat = response.reserved.toNat
  numSnapshot : response.numSnapshot.toNat = (history.filter reflected).length
  numUpdate : response.numUpdate.toNat = (history.filter fun trade => !reflected trade).length
  /-- The frame is the two blocks, and so each trade of the history once. -/
  blocks : (List.range response.reserved.toNat).map response.trades =
    history.filter reflected ++ history.filter fun trade => !reflected trade
  once : ((List.range response.reserved.toNat).map response.trades).Perm history
  /-- Nothing is written behind the frame. -/
  within : ∀ cell, response.reserved.toNat ≤ cell → response.trades cell = memory cell
  /-- The publisher reads the blocks back: the settled trades newest first, the others as they came. -/
  snapshot : response.snapshotTrades = (history.filter reflected).reverse
  update : response.updateTrades = history.filter fun trade => !reflected trade

/-- A stretch of cells read forwards. -/
private theorem encoded_forwards {trades : Nat → MDTrade} {first : Nat} {block : List MDTrade} {numTrades : UInt32}
    (all : numTrades.toNat = block.length)
    (cells : ∀ index, (inside : index < block.length) → trades (first + index) = block[index]) :
    encodedTrades trades first numTrades false = block := by
  refine List.ext_getElem (by rw [encodedTrades, List.length_map, List.length_range, all]) ?_
  intro index left right
  rw [← cells index right]
  simp only [encodedTrades, List.getElem_map, List.getElem_range]
  rfl

/-- A stretch of cells read backwards. -/
private theorem encoded_backwards {trades : Nat → MDTrade} {first : Nat} {block : List MDTrade} {numTrades : UInt32}
    (all : numTrades.toNat = block.length)
    (cells : ∀ index, (inside : index < block.length) → trades (first + index) = block[index]) :
    encodedTrades trades first numTrades true = block.reverse := by
  refine List.ext_getElem (by rw [encodedTrades, List.length_map, List.length_range, List.length_reverse, all]) ?_
  intro index left right
  rw [List.length_reverse] at right
  rw [List.getElem_reverse, ← cells (block.length - 1 - index) (by omega)]
  simp only [encodedTrades, List.getElem_map, List.getElem_range, all]
  rfl

theorem publishTradeSubscriptionResponse_splits {history : RingBuffer MDTrade} {items : List MDTrade}
    (stores : history.Stores items) (small : items.length < 2 ^ 32) (lastUpdateTime : Option Nat) (channel : UInt8)
    (memory : Nat → MDTrade) :
    (publishTradeSubscriptionResponse history lastUpdateTime channel memory).Splits items
      (reflectedInBook (lastUpdateTime.getD 0)) memory := by
  generalize isReflected : reflectedInBook (lastUpdateTime.getD 0) = reflected
  generalize isSettled : items.filter reflected = settled
  generalize isLater : items.filter (fun trade => !reflected trade) = later
  have length : settled.length + later.length = items.length := by
    rw [← isSettled, ← isLater, ← List.length_append]
    exact (List.filter_append_perm reflected items).length_eq
  have numTrades : history.size.toUInt32.toNat = items.length := by
    obtain ⟨first, stores⟩ := stores
    rw [UInt64.toNat_toUInt32, stores.size_toNat, Nat.mod_eq_of_lt small]
  let start : TradeCursor := { cells := memory, next := 0 }
  let filled := (settled ++ later).foldl TradeCursor.put start
  have written : publishTradeSubscriptionResponse history lastUpdateTime channel memory =
      { channel, reserved := history.size.toUInt32, numSnapshot := UInt32.ofNat settled.length
        numUpdate := UInt32.ofNat later.length, trades := filled.cells } := by
    rw [publishTradeSubscriptionResponse]
    dsimp only [filled]
    rw [isReflected, copyTrades_eq stores numTrades, copyTrades_eq stores numTrades, isSettled, isLater,
      List.foldl_append]
  have numSnapshot : (UInt32.ofNat settled.length).toNat = settled.length :=
    UInt32.toNat_ofNat_of_lt' (by rw [UInt32.size]; omega)
  have numUpdate : (UInt32.ofNat later.length).toNat = later.length :=
    UInt32.toNat_ofNat_of_lt' (by rw [UInt32.size]; omega)
  have cells : ∀ index, (inside : index < (settled ++ later).length) →
      filled.cells (0 + index) = (settled ++ later)[index] :=
    TradeCursor.put_cells start (settled ++ later)
  have blocks : (List.range items.length).map filled.cells = settled ++ later := by
    refine List.ext_getElem (by rw [List.length_map, List.length_range, List.length_append, length]) ?_
    intro index left right
    rw [List.getElem_map, List.getElem_range, ← cells index right, Nat.zero_add]
  rw [written]
  constructor
  case reserved => exact numTrades
  case filled => exact (congrArg₂ _ numSnapshot numUpdate).trans (length.trans numTrades.symm)
  case numSnapshot => exact numSnapshot.trans (congrArg List.length isSettled.symm)
  case numUpdate => exact numUpdate.trans (congrArg List.length isLater.symm)
  case blocks =>
    dsimp only
    rw [numTrades, blocks, isSettled, isLater]
  case once =>
    dsimp only
    rw [numTrades, blocks, ← isSettled, ← isLater]
    exact List.filter_append_perm reflected items
  case within =>
    intro cell behind
    dsimp only at behind
    rw [numTrades] at behind
    refine TradeCursor.put_behind start (settled ++ later) ?_
    rw [List.length_append, length]
    exact (Nat.zero_add _).trans_le behind
  case snapshot =>
    rw [isSettled]
    refine encoded_backwards numSnapshot ?_
    intro index inside
    rw [← List.getElem_append_left inside]
    exact cells index (by rw [List.length_append]; omega)
  case update =>
    rw [isLater, TradeResponse.updateTrades]
    dsimp only
    split
    case isTrue none =>
      rw [none] at numUpdate
      exact (List.length_eq_zero_iff.mp numUpdate.symm).symm
    case isFalse =>
      refine encoded_forwards numUpdate ?_
      intro index inside
      have behind := cells (settled.length + index) (by rw [List.length_append]; omega)
      rw [List.getElem_append_right (Nat.le_add_right _ _)] at behind
      simpa only [Nat.add_sub_cancel_left, Nat.zero_add, numSnapshot] using behind

/-- The response of every tape history: the trades still in it, settled ones first. -/
theorem tradeSubscriptionResponse_splits (prints : List MDTrade) (lastUpdateTime : Option Nat) (channel : UInt8)
    (memory : Nat → MDTrade) :
    (publishTradeSubscriptionResponse (tapeHistory prints) lastUpdateTime channel memory).Splits (keptPrints prints)
      (reflectedInBook (lastUpdateTime.getD 0)) memory := by
  refine publishTradeSubscriptionResponse_splits (tapeHistory_stores prints) ?_ lastUpdateTime channel memory
  rw [keptPrints, List.length_drop, tradeHistoryCapacity]
  omega

end SlickSim
