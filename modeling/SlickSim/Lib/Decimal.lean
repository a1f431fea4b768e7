import Mathlib.Algebra.Field.Rat
import Mathlib.Algebra.Order.BigOperators.Group.List
import Mathlib.Algebra.Order.Ring.Int
import Mathlib.Data.Finset.Card
import Mathlib.Data.List.TakeWhile

/-!
# Decimal numerals

Numerals of the form `-?digits(.digits)?`, the number a numeral stands for, and a
reader for them. The digits of a natural number are those of the core library.
-/

set_option autoImplicit false

namespace Decimal

/-- A numeral without a superfluous leading zero. Without fractional digits there is no point. -/
structure Numeral where
  negative : Bool
  whole : List Char
  fraction : List Char
  wholeDigits : ∀ c ∈ whole, c.isDigit = true
  nonempty : whole ≠ []
  noLeadingZero : whole.head? = some '0' → whole = ['0']
  fractionDigits : ∀ c ∈ fraction, c.isDigit = true

def natural (digits : List Char) : Nat :=
  Nat.ofDigitChars 10 digits 0

def magnitude (whole fraction : List Char) : ℚ :=
  natural (whole ++ fraction) / 10 ^ fraction.length

def signed (negative : Bool) (value : ℚ) : ℚ :=
  if negative then -value else value

namespace Numeral

def text (numeral : Numeral) : List Char :=
  (if numeral.negative then ['-'] else []) ++ numeral.whole ++
    (if numeral.fraction.isEmpty then [] else '.' :: numeral.fraction)

def value (numeral : Numeral) : ℚ :=
  signed numeral.negative (magnitude numeral.whole numeral.fraction)

end Numeral

/-- Reads digits, and digits behind a point if there is one. -/
def readMagnitude (text : List Char) : Option ℚ :=
  let whole := text.takeWhile Char.isDigit
  if whole.isEmpty then none
  else
    match text.dropWhile Char.isDigit with
    | [] => some (magnitude whole [])
    | '.' :: fraction =>
        if fraction.isEmpty ∨ fraction.all Char.isDigit = false then none else some (magnitude whole fraction)
    | _ :: _ => none

/-- Reads a numeral as an exact decimal. -/
def read : List Char → Option ℚ
  | '-' :: text => (readMagnitude text).map (signed true)
  | text => (readMagnitude text).map (signed false)

/-! ## Digits -/

theorem natural_append (first later : List Char) :
    natural (first ++ later) = 10 ^ later.length * natural first + natural later := by
  rw [natural, Nat.ofDigitChars_append, Nat.ofDigitChars_eq_ofDigitChars_zero]
  rfl

/-- Zeros at the end weigh as much as their number of places. -/
theorem natural_append_zeros (digits : List Char) (count : Nat) :
    natural (digits ++ List.replicate count '0') = 10 ^ count * natural digits := by
  rw [natural, Nat.ofDigitChars_append, Nat.ofDigitChars_replicate_zero]
  rfl

/-- Fractional digits padded with zeros to a number of places are the value scaled by it. -/
theorem magnitude_scaled (whole fraction : List Char) (count : Nat) :
    magnitude whole fraction * 10 ^ (fraction.length + count) =
      natural (whole ++ (fraction ++ List.replicate count '0')) := by
  have positive : (10 : ℚ) ^ fraction.length ≠ 0 := pow_ne_zero _ (by decide)
  rw [← List.append_assoc, natural_append_zeros, magnitude, pow_add, ← mul_assoc, div_mul_cancel₀ _ positive,
    Nat.cast_mul, Nat.cast_pow, mul_comm]
  rfl

/-- Only zero is written with a zero in front. -/
theorem toDigits_head_zero {n : Nat} (zero : (Nat.toDigits 10 n).head? = some '0') : Nat.toDigits 10 n = ['0'] := by
  induction n using Nat.strongRecOn with
  | ind n ih =>
      rcases Nat.lt_or_ge n 10 with short | long
      · rw [Nat.toDigits_of_lt_base short] at zero ⊢
        rw [List.head?_singleton, Option.some.injEq] at zero
        rw [zero]
      · rw [Nat.toDigits_of_base_le (by decide) long] at zero
        rw [List.head?_append_of_ne_nil _ Nat.toDigits_ne_nil] at zero
        have alone := congrArg natural (ih (n / 10) (Nat.div_lt_self (by omega) (by decide)) zero)
        rw [natural, Nat.ofDigitChars_ten_toDigits] at alone
        have none : n / 10 = 0 := alone
        omega

/-! ## Reading back -/

theorem readMagnitude_text (whole fraction : List Char) (wholeDigits : ∀ c ∈ whole, c.isDigit = true)
    (nonempty : whole ≠ []) (fractionDigits : ∀ c ∈ fraction, c.isDigit = true) :
    readMagnitude (whole ++ (if fraction.isEmpty then [] else '.' :: fraction)) = some (magnitude whole fraction) := by
  have filled : whole.isEmpty = false := List.isEmpty_eq_false_iff.mpr nonempty
  cases fraction with
  | nil =>
      rw [if_pos List.isEmpty_nil, List.append_nil, readMagnitude, List.takeWhile_eq_self_iff.mpr wholeDigits,
        List.dropWhile_eq_nil_iff.mpr wholeDigits, filled]
      rfl
  | cons digit fraction =>
      have point : ¬Char.isDigit '.' = true := by decide
      have front : (whole ++ '.' :: digit :: fraction).takeWhile Char.isDigit = whole := by
        rw [List.takeWhile_append_of_pos wholeDigits, List.takeWhile_cons_of_neg point, List.append_nil]
      have back : (whole ++ '.' :: digit :: fraction).dropWhile Char.isDigit = '.' :: digit :: fraction := by
        rw [List.dropWhile_append_of_pos wholeDigits, List.dropWhile_cons_of_neg point]
      have all : (digit :: fraction).all Char.isDigit = true := List.all_eq_true.mpr fractionDigits
      change readMagnitude (whole ++ '.' :: digit :: fraction) = _
      rw [readMagnitude, front, back, filled, if_neg Bool.false_ne_true]
      refine if_neg ?_
      rw [all]
      rintro (none | unread)
      · exact Bool.false_ne_true none
      · exact Bool.false_ne_true unread.symm

theorem read_text (numeral : Numeral) : read numeral.text = some numeral.value := by
  obtain ⟨negative, whole, fraction, wholeDigits, nonempty, noLeadingZero, fractionDigits⟩ := numeral
  have body := readMagnitude_text whole fraction wholeDigits nonempty fractionDigits
  cases negative with
  | true => exact congrArg (Option.map (signed true)) body
  | false =>
      cases whole with
      | nil => exact absurd rfl nonempty
      | cons first rest =>
          have notMinus : first ≠ '-' := by
            rintro rfl
            exact absurd (wholeDigits '-' List.mem_cons_self) (by decide)
          have unsigned : ∀ text : List Char, read (first :: text) = (readMagnitude (first :: text)).map (signed false) := by
            intro text
            rw [read]
            rintro _ ⟨⟩
            exact notMinus rfl
          exact (unsigned _).trans (congrArg (Option.map (signed false)) body)

end Decimal
