import Mathlib.Algebra.Order.BigOperators.Group.List
import Mathlib.Algebra.Order.Group.Int
import Mathlib.Algebra.Order.Ring.Int
import Mathlib.Data.Finset.Card

/-!
# Checked machine arithmetic

Values of 64-bit types as integers, with every step that could leave the type, or a
call's precondition, checked. A program of such steps either fails or computes what
it would without a bound.
-/

set_option autoImplicit false

namespace MachineInt

/-- The value, when a signed 64-bit integer can hold it. -/
def int64 (value : Int) : Option Int :=
  if -2 ^ 63 ≤ value ∧ value < 2 ^ 63 then some value else none

/-- A signed value cast to an unsigned one, when the cast keeps it. -/
def uint64 (value : Int) : Option Nat :=
  if 0 ≤ value ∧ value < 2 ^ 64 then some value.toNat else none

/-- `floor(a * b / c)`, with the precondition that it asserts and its 128-bit product. -/
def mulDivFloor (a b c : Nat) : Option Nat :=
  if (c ≠ 0 ∧ b ≤ c) ∧ a * b < 2 ^ 128 ∧ a * b / c < 2 ^ 64 then some (a * b / c) else none

theorem int64_eq {value : Int} (low : -2 ^ 63 ≤ value) (high : value < 2 ^ 63) :
    int64 value = some value :=
  if_pos ⟨low, high⟩

theorem uint64_eq {value : Int} (low : 0 ≤ value) (high : value < 2 ^ 63) :
    uint64 value = some value.toNat :=
  if_pos ⟨low, by omega⟩

/-- On 64-bit operands the precondition is all that is needed. -/
theorem mulDivFloor_eq {a b c : Nat} (positive : 0 < c) (within : b ≤ c) (aFits : a < 2 ^ 64)
    (cFits : c < 2 ^ 64) : mulDivFloor a b c = some (a * b / c) := by
  refine if_pos ⟨⟨Nat.ne_of_gt positive, within⟩, ?_, ?_⟩
  · calc a * b < 2 ^ 64 * 2 ^ 64 := Nat.mul_lt_mul'' aFits (by omega)
      _ = 2 ^ 128 := (Nat.pow_add 2 64 64).symm
  · refine Nat.lt_of_le_of_lt (Nat.div_le_of_le_mul ?_) aFits
    rw [Nat.mul_comm c]
    exact Nat.mul_le_mul_left a within

end MachineInt
