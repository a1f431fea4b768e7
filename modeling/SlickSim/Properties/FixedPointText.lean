import SlickSim.Common.FixedPoint
import SlickSim.Lib.Decimal

/-!
# The text of a fixed-point value

`toFixedString` writes a numeral that reads back as exactly the value it was given.
-/

set_option autoImplicit false

namespace SlickSim

open Decimal

/-! ## The digits behind the point -/

theorem length_fractionDigits (places : Nat) (fraction : UInt64) : (fractionDigits places fraction).length = places := by
  induction places generalizing fraction with
  | zero => rfl
  | succ places ih => rw [fractionDigits, List.length_append, ih, List.length_singleton]

theorem isDigit_of_mem_fractionDigits {places : Nat} {fraction : UInt64} {c : Char}
    (written : c ∈ fractionDigits places fraction) : c.isDigit = true := by
  induction places generalizing fraction with
  | zero => cases written
  | succ places ih =>
      rcases List.mem_append.mp written with earlier | last
      · exact ih earlier
      · rw [List.mem_singleton.mp last, Nat.isDigit_digitChar, decide_eq_true_iff, UInt64.toNat_mod]
        exact Nat.mod_lt _ (by decide)

/-- The places hold the last digits of the fraction. -/
theorem natural_fractionDigits (places : Nat) (fraction : UInt64) :
    natural (fractionDigits places fraction) = fraction.toNat % 10 ^ places := by
  induction places generalizing fraction with
  | zero => exact (Nat.mod_one _).symm
  | succ places ih =>
      have last : natural [Nat.digitChar (fraction % 10).toNat] = fraction.toNat % 10 := by
        have digit : (fraction % 10).toNat < 10 := by
          rw [UInt64.toNat_mod]
          exact Nat.mod_lt _ (by decide)
        rw [natural, Nat.ofDigitChars_cons_digitChar_of_lt_ten digit, Nat.ofDigitChars_nil, UInt64.toNat_mod]
        exact Nat.zero_add _
      have ten : (10 : UInt64).toNat = 10 := rfl
      rw [fractionDigits, natural_append, ih, last, UInt64.toNat_div, ten, List.length_singleton, Nat.pow_one,
        Nat.pow_succ', Nat.mod_mul, Nat.add_comm]

/-- Trimming takes zeros alone, keeps the floor, and above the floor ends with another digit. -/
theorem trimZeros_spec (minFracDigits : Nat) (significant : List Char) :
    (∃ count, significant = trimZeros minFracDigits significant ++ List.replicate count '0') ∧
      min minFracDigits significant.length ≤ (trimZeros minFracDigits significant).length ∧
      (minFracDigits < (trimZeros minFracDigits significant).length →
        (trimZeros minFracDigits significant).getLast? ≠ some '0') := by
  fun_induction trimZeros minFracDigits significant with
  | case1 significant more ih =>
      obtain ⟨⟨count, split⟩, floor, last⟩ := ih
      rw [List.length_dropLast] at floor
      refine ⟨⟨count + 1, ?_⟩, by omega, last⟩
      rw [List.replicate_succ', ← List.append_assoc, ← split]
      exact (List.dropLast_append_getLast? '0' more.2).symm
  | case2 significant stop =>
      exact ⟨⟨0, (List.append_nil _).symm⟩, Nat.min_le_right _ _, fun above zero => stop ⟨above, zero⟩⟩

/-! ## The number -/

/-- The unsigned negation loses nothing, not even for the most negative value. -/
theorem magnitude_toNat (value : Int64) :
    (if value < 0 then 0 - value.toUInt64 else value.toUInt64).toNat = value.toInt.natAbs := by
  have bound := value.toUInt64.toNat_lt
  have signed : value.toInt = if 2 * value.toUInt64.toNat < 2 ^ 64 then (value.toUInt64.toNat : Int)
      else (value.toUInt64.toNat : Int) - (2 ^ 64 : Nat) := BitVec.toInt_eq_toNat_cond _
  have zero : (0 : Int64).toInt = 0 := rfl
  split
  case isTrue below =>
    have none : (0 : UInt64).toNat = 0 := rfl
    rw [Int64.lt_iff_toInt_lt, zero] at below
    rw [UInt64.toNat_sub]
    split at signed <;> omega
  case isFalse above =>
    rw [Int64.lt_iff_toInt_lt, zero] at above
    split at signed <;> omega

/-- A numeral that carries the value `value / 10 ^ 8` with a floor on its fractional digits. -/
structure Renders (numeral : Numeral) (value : Int64) (minFracDigits : UInt32) : Prop where
  floor : min minFracDigits.toNat 8 ≤ numeral.fraction.length
  ceiling : numeral.fraction.length ≤ 8
  /-- No zero stands at the end beyond the floor. -/
  trimmed : min minFracDigits.toNat 8 < numeral.fraction.length → numeral.fraction.getLast? ≠ some '0'
  exact_value : numeral.value * 10 ^ 8 = value.toInt

/-- The digits that are left of the fraction, with the two places where none is. -/
private theorem kept_digits (fraction : UInt64) (small : fraction.toNat < 10 ^ 8) (minFracDigits : UInt32) :
    ∃ kept count, fractionDigits 8 fraction = kept ++ List.replicate count '0' ∧
      min minFracDigits.toNat 8 ≤ kept.length ∧
      (min minFracDigits.toNat 8 < kept.length → kept.getLast? ≠ some '0') ∧
      ∀ out : List Char,
        (if fraction = 0 ∧ minFracDigits = 0 then out
          else out ++ '.' :: trimZeros minFracDigits.toNat (fractionDigits 8 fraction)) =
          out ++ if kept.isEmpty then [] else '.' :: kept := by
  by_cases whole : fraction = 0 ∧ minFracDigits = 0
  · obtain ⟨rfl, rfl⟩ := whole
    exact ⟨[], 8, rfl, Nat.zero_le _, fun above => absurd above (Nat.not_lt_zero _),
      fun out => (List.append_nil out).symm⟩
  · obtain ⟨⟨count, split⟩, floor, last⟩ := trimZeros_spec minFracDigits.toNat (fractionDigits 8 fraction)
    have length := congrArg List.length split
    rw [length_fractionDigits] at floor length
    rw [List.length_append] at length
    refine ⟨_, count, split, floor, fun above => last (by omega), ?_⟩
    intro out
    rw [if_neg whole, if_neg]
    intro none
    rw [List.isEmpty_iff] at none
    rw [none, List.length_nil] at floor
    rw [none] at split
    have zero : fraction.toNat = 0 := by
      rw [← Nat.mod_eq_of_lt small, ← natural_fractionDigits, split, natural_append_zeros]
      rfl
    refine whole ⟨UInt64.toNat_inj.mp zero, UInt32.toNat_inj.mp ?_⟩
    have unasked : minFracDigits.toNat = 0 := by omega
    exact unasked

private theorem signed_natAbs (value : Int64) :
    signed (decide (value < 0)) (value.toInt.natAbs : ℚ) = value.toInt := by
  have zero : (0 : Int64).toInt = 0 := rfl
  by_cases below : value < 0
  · rw [signed, if_pos (decide_eq_true below)]
    rw [Int64.lt_iff_toInt_lt, zero] at below
    have same : value.toInt = -(value.toInt.natAbs : Int) := by omega
    conv_rhs => rw [same]
    rw [Int.cast_neg, Int.cast_natCast]
  · rw [signed, if_neg (by rw [decide_eq_true_iff]; exact below)]
    rw [Int64.lt_iff_toInt_lt, zero] at below
    have same : value.toInt = (value.toInt.natAbs : Int) := by omega
    conv_rhs => rw [same]
    rw [Int.cast_natCast]

theorem toFixedString_renders (value : Int64) (minFracDigits : UInt32) :
    ∃ numeral : Numeral, toFixedString value minFracDigits = numeral.text ∧ Renders numeral value minFracDigits := by
  have scaled := magnitude_toNat value
  generalize isAmount : (if value < 0 then 0 - value.toUInt64 else value.toUInt64) = amount at scaled
  have scale : fixedPointScale.toNat = 10 ^ 8 := rfl
  have small : (amount % fixedPointScale).toNat < 10 ^ 8 := by
    rw [UInt64.toNat_mod, scale]
    exact Nat.mod_lt _ (by decide)
  obtain ⟨kept, count, split, floor, last, written⟩ := kept_digits (amount % fixedPointScale) small minFracDigits
  have places : kept.length + count = 8 := by
    have length := congrArg List.length split
    rw [length_fractionDigits, List.length_append, List.length_replicate] at length
    exact length.symm
  have keptDigits : ∀ c ∈ kept, c.isDigit = true := by
    intro c inside
    refine @isDigit_of_mem_fractionDigits 8 (amount % fixedPointScale) c ?_
    rw [split]
    exact List.mem_append_left _ inside
  let numeral : Numeral :=
    { negative := value < 0
      whole := Nat.toDigits 10 (amount / fixedPointScale).toNat
      fraction := kept
      wholeDigits := fun c inside => Nat.isDigit_of_mem_toDigits (by decide) (by decide) inside
      nonempty := Nat.toDigits_ne_nil
      noLeadingZero := toDigits_head_zero
      fractionDigits := keptDigits }
  have digits : magnitude numeral.whole kept * 10 ^ 8 = (value.toInt.natAbs : ℚ) := by
    rw [← places, magnitude_scaled, ← split, natural_append, natural_fractionDigits, length_fractionDigits,
      Nat.mod_eq_of_lt small, natural, Nat.ofDigitChars_ten_toDigits, UInt64.toNat_div, UInt64.toNat_mod, scale,
      Nat.div_add_mod, scaled]
  refine ⟨numeral, ?_, floor, (Nat.le_add_right _ _).trans_eq places, last, ?_⟩
  · rw [toFixedString, isAmount, written]
    simp only [Numeral.text, numeral, decide_eq_true_eq]
  · rw [← signed_natAbs, ← digits, Numeral.value, signed, signed]
    split
    · exact neg_mul _ _
    · rfl

/-- Every value is written as a numeral that a reader of exact decimals reads as `value / 10 ^ 8`,
so with one floor no two values are written alike. -/
theorem toFixedString_roundTrip (minFracDigits : UInt32) :
    (∀ value : Int64,
      (∃ numeral : Numeral, toFixedString value minFracDigits = numeral.text ∧ Renders numeral value minFracDigits) ∧
      (read (toFixedString value minFracDigits)).map (· * 10 ^ 8) = some (value.toInt : ℚ)) ∧
    Function.Injective (toFixedString · minFracDigits) := by
  have reads : ∀ value : Int64,
      (read (toFixedString value minFracDigits)).map (· * 10 ^ 8) = some (value.toInt : ℚ) := by
    intro value
    obtain ⟨numeral, written, renders⟩ := toFixedString_renders value minFracDigits
    rw [written, read_text, Option.map_some, renders.exact_value]
  refine ⟨fun value => ⟨toFixedString_renders value minFracDigits, reads value⟩, ?_⟩
  intro left right same
  have equal := (reads left).symm.trans ((congrArg (fun text => (read text).map (· * 10 ^ 8)) same).trans (reads right))
  exact Int64.toInt_inj.mp (Rat.intCast_inj.mp (Option.some.inj equal))

end SlickSim
