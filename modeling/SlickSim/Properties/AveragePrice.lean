import SlickSim.Common.Order

/-!
# The average price of an order's fills

The running notional is unsigned. It holds what the fills add up to as long as that is
not negative, and a fill below zero is cast around before it is added.
-/

set_option autoImplicit false

namespace SlickSim

structure Fill where
  price : Int
  qty : Int
  timestamp : Nat

def notional (fills : List Fill) : Int :=
  (fills.map fun fill => fill.price * fill.qty).sum

def volume (fills : List Fill) : Int :=
  (fills.map Fill.qty).sum

/-- A fill that `executeOrder` can be called with. -/
structure Fill.Valid (fill : Fill) : Prop where
  positive : 0 < fill.qty
  low : -2 ^ 63 ≤ fill.price
  high : fill.price < 2 ^ 63

namespace Order

def executeAll (order : Order) (fills : List Fill) : Order :=
  fills.foldl (fun order fill => order.execute fill.price fill.qty fill.timestamp) order

/-- The average is the exact quotient, rounded toward zero, and so within the prices. -/
structure AverageExact (order : Order) (fills : List Fill) : Prop where
  quotient : order.avgFillPrice = (notional fills).tdiv (volume fills)
  low : ∃ fill ∈ fills, fill.price ≤ order.avgFillPrice
  high : ∃ fill ∈ fills, order.avgFillPrice ≤ fill.price

/-- No value of `executeOrder` wraps when it books the fill. -/
structure Unwrapped (order : Order) (fill : Fill) : Prop where
  price : (toCumValue fill.price : Int) = fill.price
  qty : (toCumValue fill.qty : Int) = fill.qty
  product : toCumValue fill.price * toCumValue fill.qty < cumValueModulus
  sum : order.cumValue + toCumValue fill.price * toCumValue fill.qty < cumValueModulus
  cumQuantity : order.cumQuantity + fill.qty < 2 ^ 63
  average : (order.cumValue + toCumValue fill.price * toCumValue fill.qty) /
    toCumValue (order.cumQuantity + fill.qty) < 2 ^ 63

end Order

/-! ## Sums -/

section Sums

variable {fills : List Fill} {bound : Int}

theorem notional_append (first later : List Fill) : notional (first ++ later) = notional first + notional later := by
  rw [notional, List.map_append, List.sum_append]
  rfl

theorem volume_append (first later : List Fill) : volume (first ++ later) = volume first + volume later := by
  rw [volume, List.map_append, List.sum_append]
  rfl

theorem notional_concat (fills : List Fill) (fill : Fill) :
    notional (fills ++ [fill]) = notional fills + fill.price * fill.qty := by
  rw [notional_append]
  exact congrArg _ (Int.add_zero _)

theorem volume_concat (fills : List Fill) (fill : Fill) : volume (fills ++ [fill]) = volume fills + fill.qty := by
  rw [volume_append]
  exact congrArg _ (Int.add_zero _)

theorem volume_nonneg (valid : ∀ fill ∈ fills, fill.Valid) : 0 ≤ volume fills := by
  refine List.sum_nonneg ?_
  intro qty inside
  obtain ⟨fill, from_, rfl⟩ := List.mem_map.mp inside
  exact (valid fill from_).positive.le

theorem le_notional (valid : ∀ fill ∈ fills, fill.Valid) (low : ∀ fill ∈ fills, bound ≤ fill.price) :
    bound * volume fills ≤ notional fills := by
  induction fills with
  | nil => exact (Int.mul_zero bound).le
  | cons fill fills ih =>
      have rest := ih (fun fill inside => valid fill (List.mem_cons_of_mem _ inside))
        (fun fill inside => low fill (List.mem_cons_of_mem _ inside))
      have first := Int.mul_le_mul_of_nonneg_right (low fill List.mem_cons_self) (valid fill List.mem_cons_self).positive.le
      calc bound * volume (fill :: fills) = bound * fill.qty + bound * volume fills := Int.mul_add _ _ _
        _ ≤ fill.price * fill.qty + notional fills := Int.add_le_add first rest

theorem notional_le (valid : ∀ fill ∈ fills, fill.Valid) (high : ∀ fill ∈ fills, fill.price ≤ bound) :
    notional fills ≤ bound * volume fills := by
  induction fills with
  | nil => exact (Int.mul_zero bound).ge
  | cons fill fills ih =>
      have rest := ih (fun fill inside => valid fill (List.mem_cons_of_mem _ inside))
        (fun fill inside => high fill (List.mem_cons_of_mem _ inside))
      have first := Int.mul_le_mul_of_nonneg_right (high fill List.mem_cons_self) (valid fill List.mem_cons_self).positive.le
      calc fill.price * fill.qty + notional fills ≤ bound * fill.qty + bound * volume fills := Int.add_le_add first rest
        _ = bound * volume (fill :: fills) := (Int.mul_add _ _ _).symm

end Sums

/-! ## The machine values -/

section Machine

theorem toCumValue_cast (value : Int) : (toCumValue value : Int) = value % (cumValueModulus : Int) :=
  Int.toNat_of_nonneg (Int.emod_nonneg _ (by decide))

theorem toCumValue_eq {value : Int} (low : 0 ≤ value) (high : value < 2 ^ 63) : (toCumValue value : Int) = value := by
  rw [toCumValue_cast]
  exact Int.emod_eq_of_lt low (high.trans (by decide))

variable {order : Order} {fills : List Fill}

/-- The order's accounts hold what the fills add up to, the notional modulo `2 ^ 128`. -/
structure Order.Accounts (order : Order) (fills : List Fill) : Prop where
  cumValue : (order.cumValue : Int) = notional fills % (cumValueModulus : Int)
  cumQuantity : order.cumQuantity = volume fills

theorem Order.Accounts.execute (accounts : order.Accounts fills) (fill : Fill) :
    (order.execute fill.price fill.qty fill.timestamp).Accounts (fills ++ [fill]) where
  cumValue := by
    change ((((order.cumValue + toCumValue fill.price * toCumValue fill.qty) % cumValueModulus : Nat)) : Int) = _
    rw [Int.natCast_emod, Int.natCast_add, Int.natCast_mul, accounts.cumValue, toCumValue_cast, toCumValue_cast,
      notional_concat, Int.emod_add_emod, Int.add_emod, ← Int.mul_emod, ← Int.add_emod]
  cumQuantity := by
    rw [volume_concat, ← accounts.cumQuantity]
    rfl

theorem Order.Accounts.executeAll (accounts : order.Accounts []) (fills : List Fill) :
    (order.executeAll fills).Accounts fills := by
  induction fills using List.reverseRecOn with
  | nil => exact accounts
  | append_singleton fills fill ih =>
      rw [Order.executeAll, List.foldl_concat]
      exact ih.execute fill

/-- A quotient rounded toward zero is not below every price. -/
theorem low_price (valid : ∀ fill ∈ fills, fill.Valid) (positive : 0 < volume fills) :
    ∃ fill ∈ fills, fill.price ≤ (notional fills).tdiv (volume fills) := by
  refine by_contra fun none => ?_
  have above : ∀ fill ∈ fills, (notional fills).tdiv (volume fills) + 1 ≤ fill.price :=
    fun fill inside => Int.not_le.mp fun below => none ⟨fill, inside, below⟩
  exact absurd (Int.lt_tdiv_add_one_mul_self (notional fills) positive) (Int.not_lt.mpr (le_notional valid above))

theorem high_price (valid : ∀ fill ∈ fills, fill.Valid) (positive : 0 < volume fills) :
    ∃ fill ∈ fills, (notional fills).tdiv (volume fills) ≤ fill.price := by
  refine by_contra fun none => ?_
  have below : ∀ fill ∈ fills, fill.price ≤ (notional fills).tdiv (volume fills) - 1 :=
    fun fill inside => Int.le_sub_one_of_lt (Int.not_le.mp fun above => none ⟨fill, inside, above⟩)
  have within := notional_le valid below
  have beyond := Int.lt_tdiv_add_one_mul_self (-notional fills) positive
  rw [Int.neg_tdiv, show -(notional fills).tdiv (volume fills) + 1 = -((notional fills).tdiv (volume fills) - 1) by omega,
    Int.neg_mul] at beyond
  omega

section Average

variable (valid : ∀ fill ∈ fills, fill.Valid) (positive : 0 < volume fills) (small : volume fills < 2 ^ 63)

include valid in
private theorem notional_bounds : -(2 ^ 63 * volume fills) ≤ notional fills ∧ notional fills ≤ nullPrice * volume fills :=
  ⟨(Int.neg_mul _ _).symm.trans_le (le_notional valid fun fill inside => (valid fill inside).low),
    notional_le valid fun fill inside => Int.le_sub_one_of_lt (valid fill inside).high⟩

include valid positive small in
/-- While the notional is not negative the average is the exact quotient. -/
theorem average_of_nonneg (accounts : order.Accounts fills) (nonneg : 0 ≤ notional fills) :
    ofCumValue (order.cumValue / toCumValue order.cumQuantity) = (notional fills).tdiv (volume fills) := by
  have upper := (notional_bounds valid).2
  have below : notional fills < (cumValueModulus : Int) := by
    have most : nullPrice * volume fills ≤ nullPrice * 2 ^ 63 :=
      Int.mul_le_mul_of_nonneg_left small.le (by decide)
    exact (upper.trans most).trans_lt (by decide)
  have held : (order.cumValue : Int) = notional fills := accounts.cumValue.trans (Int.emod_eq_of_lt nonneg below)
  have qty : (toCumValue order.cumQuantity : Int) = volume fills := by
    rw [accounts.cumQuantity]
    exact toCumValue_eq positive.le small
  have bounded : notional fills / volume fills ≤ nullPrice := Int.ediv_le_of_le_mul positive upper
  rw [ofCumValue, Int.natCast_ediv, held, qty, Int.tdiv_eq_ediv_of_nonneg nonneg]
  exact Int.min_eq_left bounded

include valid positive small in
/-- A negative notional stands for one beyond every price. -/
theorem average_of_neg (accounts : order.Accounts fills) (negative : notional fills < 0) :
    ofCumValue (order.cumValue / toCumValue order.cumQuantity) = nullPrice := by
  have lower := (notional_bounds valid).1
  have least : 2 ^ 63 * volume fills ≤ 2 ^ 63 * 2 ^ 63 := Int.mul_le_mul_of_nonneg_left small.le (by decide)
  have modulus : (cumValueModulus : Int) = 2 ^ 128 := by decide
  have wrapped : (order.cumValue : Int) = notional fills + 2 ^ 128 := by
    rw [accounts.cumValue, modulus, ← Int.add_emod_right]
    exact Int.emod_eq_of_lt (by omega) (by omega)
  have qty : (toCumValue order.cumQuantity : Int) = volume fills := by
    rw [accounts.cumQuantity]
    exact toCumValue_eq positive.le small
  rw [ofCumValue, Int.natCast_ediv, wrapped, qty]
  refine Int.min_eq_right ?_
  rw [Int.le_ediv_iff_mul_le positive]
  have most : nullPrice * volume fills ≤ nullPrice * 2 ^ 63 :=
    Int.mul_le_mul_of_nonneg_left small.le (by decide)
  have room : nullPrice * 2 ^ 63 ≤ 2 ^ 128 - 2 ^ 63 * 2 ^ 63 := by decide
  omega

end Average

theorem executeAll_average (accounts : order.Accounts []) (past : List Fill) (fill : Fill)
    (positive : 0 < volume (past ++ [fill])) :
    (order.executeAll (past ++ [fill])).avgFillPrice =
      ofCumValue ((order.executeAll (past ++ [fill])).cumValue /
        toCumValue (order.executeAll (past ++ [fill])).cumQuantity) := by
  have cumQuantity := (accounts.executeAll (past ++ [fill])).cumQuantity
  rw [← cumQuantity] at positive
  rw [Order.executeAll, List.foldl_concat] at positive ⊢
  exact if_pos positive

/-- Fills at prices that are not negative are booked without a wrap. -/
theorem Order.Accounts.unwrapped (accounts : order.Accounts fills) {fill : Fill}
    (valid : ∀ booked ∈ fills ++ [fill], booked.Valid) (small : volume (fills ++ [fill]) < 2 ^ 63)
    (nonneg : ∀ booked ∈ fills ++ [fill], 0 ≤ booked.price) : order.Unwrapped fill := by
  have inside : fill ∈ fills ++ [fill] := List.mem_append_right _ List.mem_cons_self
  have earlier : ∀ booked ∈ fills, booked.Valid := fun booked from_ => valid booked (List.mem_append_left _ from_)
  have volumes := volume_concat fills fill
  have before := volume_nonneg earlier
  have last := valid fill inside
  have bought := last.positive
  have price : (toCumValue fill.price : Int) = fill.price := toCumValue_eq (nonneg fill inside) last.high
  have qty : (toCumValue fill.qty : Int) = fill.qty := toCumValue_eq last.positive.le (by omega)
  have low : ∀ part : List Fill, (∀ booked ∈ part, booked.Valid) → (∀ booked ∈ part, 0 ≤ booked.price) →
      0 ≤ notional part := by
    intro part valid nonneg
    exact (Int.zero_mul _).symm.trans_le (le_notional valid nonneg)
  have past := low fills earlier fun booked from_ => nonneg booked (List.mem_append_left _ from_)
  have upper := (notional_bounds valid).2
  rw [notional_concat] at upper
  have most : nullPrice * volume (fills ++ [fill]) ≤ nullPrice * 2 ^ 63 :=
    Int.mul_le_mul_of_nonneg_left small.le (by decide)
  have product : 0 ≤ fill.price * fill.qty := Int.mul_nonneg (nonneg fill inside) last.positive.le
  have room : nullPrice * 2 ^ 63 < 2 ^ 128 := by decide
  have modulus : (cumValueModulus : Int) = 2 ^ 128 := by decide
  have held : (order.cumValue : Int) = notional fills := by
    rw [accounts.cumValue, modulus]
    exact Int.emod_eq_of_lt past (by omega)
  have total : (toCumValue (order.cumQuantity + fill.qty) : Int) = volume (fills ++ [fill]) := by
    rw [accounts.cumQuantity, volumes]
    exact toCumValue_eq (by omega) (by omega)
  refine ⟨price, qty, ?_, ?_, ?_, ?_⟩
  · rw [← Int.ofNat_lt, Int.natCast_mul, price, qty, modulus]
    omega
  · rw [← Int.ofNat_lt, Int.natCast_add, Int.natCast_mul, price, qty, held, modulus]
    omega
  · rw [accounts.cumQuantity]
    omega
  · rw [← Int.ofNat_lt, Int.natCast_ediv, Int.natCast_add, Int.natCast_mul, price, qty, held, total]
    refine Int.ediv_lt_of_lt_mul (by omega) ?_
    have strict : nullPrice * volume (fills ++ [fill]) < 2 ^ 63 * volume (fills ++ [fill]) :=
      Int.mul_lt_mul_of_pos_right (by decide) (by omega)
    exact upper.trans_lt strict

end Machine

section Fresh

variable {order : Order} {fills past : List Fill}

/-- After the last of some fills the average is exact when they do not add up to less than zero, and only then. -/
private theorem averageExact_iff (accounts : order.Accounts []) {fill : Fill}
    (valid : ∀ booked ∈ past ++ [fill], booked.Valid) (small : volume (past ++ [fill]) < 2 ^ 63) :
    (order.executeAll (past ++ [fill])).AverageExact (past ++ [fill]) ↔ 0 ≤ notional (past ++ [fill]) := by
  have before := volume_nonneg fun booked from_ => valid booked (List.mem_append_left _ from_)
  have last := valid fill (List.mem_append_right _ List.mem_cons_self)
  have positive : 0 < volume (past ++ [fill]) := by
    rw [volume_concat]
    exact Int.lt_of_lt_of_le last.positive (Int.le_add_of_nonneg_left before)
  have average := executeAll_average accounts past fill positive
  have booked := accounts.executeAll (past ++ [fill])
  constructor
  · intro exact_
    refine Int.not_lt.mp fun negative => ?_
    rw [average_of_neg valid positive small booked negative] at average
    have quotient := exact_.quotient
    have opposite := Int.tdiv_nonneg (Int.neg_nonneg_of_nonpos negative.le) positive.le
    rw [Int.neg_tdiv, ← quotient, average] at opposite
    exact absurd opposite (by decide)
  · intro nonneg
    rw [average_of_nonneg valid positive small booked nonneg] at average
    refine ⟨average, ?_, ?_⟩
    · rw [average]
      exact low_price valid positive
    · rw [average]
      exact high_price valid positive

/-- The fills of an order are booked exactly as long as no price is below zero; the average alone
is exact as long as what the fills add up to is never below zero. -/
theorem executeOrder_average_iff (order : Order) (unvalued : order.cumValue = 0) (unfilled : order.cumQuantity = 0)
    (fills : List Fill) (valid : ∀ fill ∈ fills, fill.Valid) (small : volume fills < 2 ^ 63) :
    ((∀ past fill, past ++ [fill] <+: fills →
        (order.executeAll past).Unwrapped fill ∧ (order.executeAll (past ++ [fill])).AverageExact (past ++ [fill])) ↔
      ∀ fill ∈ fills, 0 ≤ fill.price) ∧
    ((∀ past fill, past ++ [fill] <+: fills → (order.executeAll (past ++ [fill])).AverageExact (past ++ [fill])) ↔
      ∀ past, past <+: fills → 0 ≤ notional past) := by
  have accounts : order.Accounts [] := ⟨congrArg Nat.cast unvalued, unfilled⟩
  have part : ∀ {past : List Fill}, past <+: fills → (∀ fill ∈ past, fill.Valid) ∧ volume past < 2 ^ 63 := by
    rintro past ⟨later, rfl⟩
    have rest := volume_nonneg fun fill from_ => valid fill (List.mem_append_right _ from_)
    rw [volume_append] at small
    exact ⟨fun fill inside => valid fill (List.mem_append_left _ inside), by omega⟩
  refine ⟨⟨?_, ?_⟩, ⟨?_, ?_⟩⟩
  · intro every fill inside
    obtain ⟨past, later, rfl⟩ := List.append_of_mem inside
    have unwrapped := (every past fill ⟨later, by rw [List.append_assoc, List.singleton_append]⟩).1
    rw [← unwrapped.price]
    exact Int.natCast_nonneg _
  · intro nonneg past fill inside
    obtain ⟨partValid, partSmall⟩ := part inside
    have prices : ∀ booked ∈ past ++ [fill], 0 ≤ booked.price := fun booked from_ => nonneg booked (inside.subset from_)
    refine ⟨(accounts.executeAll past).unwrapped partValid partSmall prices, ?_⟩
    exact (averageExact_iff accounts partValid partSmall).mpr
      ((Int.zero_mul _).symm.trans_le (le_notional partValid prices))
  · intro every past inside
    rcases List.eq_nil_or_concat past with rfl | ⟨init, last, rfl⟩
    · exact Int.le_refl 0
    · rw [List.concat_eq_append] at inside ⊢
      obtain ⟨partValid, partSmall⟩ := part inside
      exact (averageExact_iff accounts partValid partSmall).mp (every init last inside)
  · intro nonneg past fill inside
    obtain ⟨partValid, partSmall⟩ := part inside
    exact (averageExact_iff accounts partValid partSmall).mpr (nonneg _ inside)

end Fresh

/-- Three fills that add up to more than zero at every point, one of them at a price below zero: the
averages are exact, though a product has wrapped. -/
theorem executeOrder_average_iff_mixed :
    let fills : List Fill := [⟨100, 2, 1⟩, ⟨-40, 3, 2⟩, ⟨7, 1, 3⟩]
    let order : Order := default
    (∀ past fill, past ++ [fill] <+: fills → (order.executeAll (past ++ [fill])).AverageExact (past ++ [fill])) ∧
      ¬ ∀ past fill, past ++ [fill] <+: fills →
        (order.executeAll past).Unwrapped fill ∧ (order.executeAll (past ++ [fill])).AverageExact (past ++ [fill]) := by
  intro fills order
  have valid : ∀ fill ∈ fills, fill.Valid := by
    intro fill inside
    rcases List.mem_cons.mp inside with rfl | inside
    · exact ⟨by decide, by decide, by decide⟩
    rcases List.mem_cons.mp inside with rfl | inside
    · exact ⟨by decide, by decide, by decide⟩
    rw [List.mem_singleton.mp inside]
    exact ⟨by decide, by decide, by decide⟩
  obtain ⟨unwrapped, exact_⟩ := executeOrder_average_iff order rfl rfl fills valid (by decide)
  refine ⟨exact_.mpr ?_, fun every => absurd (unwrapped.mp every) (by decide)⟩
  have worth : ∀ past ∈ fills.inits, 0 ≤ notional past := by decide
  exact fun past inside => worth past ((List.mem_inits past fills).mpr inside)

/-- One share at a price of -1 has an average beyond every price. -/
theorem not_averageExact_below_zero :
    ¬ ∀ (order : Order) (fills : List Fill), order.cumValue = 0 → order.cumQuantity = 0 → fills ≠ [] →
      (∀ fill ∈ fills, fill.Valid) → volume fills < 2 ^ 63 →
        (order.executeAll fills).avgFillPrice = (notional fills).tdiv (volume fills) := by
  intro every
  have exact_ := every default [⟨-1, 1, 0⟩] rfl rfl (List.cons_ne_nil _ _)
    (by
      intro fill inside
      rw [List.mem_singleton.mp inside]
      exact ⟨by decide, by decide, by decide⟩)
    (by decide)
  exact absurd exact_ (by decide)

end SlickSim
