import Mathlib.Data.Nat.Notation

/-!
# Rendering of fixed-point values

`to_fixed_string` of `common/types.hpp`, on the machine integers it computes with. A
string is the list of its characters.
-/

set_option autoImplicit false

namespace SlickSim

/-- `DOUBLE_MULTIPLIER`, as `to_fixed_string` uses it. -/
def fixedPointScale : UInt64 := 100000000

/-- The digit loop, which fills its buffer from the back. -/
def fractionDigits : Nat → UInt64 → List Char
  | 0, _ => []
  | places + 1, fraction => fractionDigits places (fraction / 10) ++ [Nat.digitChar (fraction % 10).toNat]

/-- The trimming loop: it stops at the floor and at a digit that counts. -/
def trimZeros (minFracDigits : Nat) (significant : List Char) : List Char :=
  if minFracDigits < significant.length ∧ significant.getLast? = some '0' then
    trimZeros minFracDigits significant.dropLast
  else significant
termination_by significant.length
decreasing_by
  rename_i more
  rw [List.length_dropLast]
  omega

def toFixedString (value : Int64) (minFracDigits : UInt32) : List Char :=
  let negative := value < 0
  -- The negation is done in the unsigned type.
  let magnitude := if negative then 0 - value.toUInt64 else value.toUInt64
  let fraction := magnitude % fixedPointScale
  let out := (if negative then ['-'] else []) ++ Nat.toDigits 10 (magnitude / fixedPointScale).toNat
  if fraction = 0 ∧ minFracDigits = 0 then out
  else out ++ '.' :: trimZeros minFracDigits.toNat (fractionDigits 8 fraction)

end SlickSim
