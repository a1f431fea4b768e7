import Mathlib.Algebra.Order.BigOperators.Group.List
import Mathlib.Algebra.Order.Ring.Int
import Mathlib.Data.Finset.Card
import Mathlib.Data.List.Basic

/-!
# Fixed-point values and wire strings

Prices and quantities are the scaled 64-bit integers of the source, kept as
unbounded integers. Where their width shows (the total of a level that is shared
out pro rata, the average price, the text of a value) the arithmetic is repeated
with its bounds. `nullPrice` is the market-order sentinel. Names travel as
NUL-terminated fields of a fixed width, so a value of `FixedString n` is what a
`char[n]` or a `fixed_string<n>` can hold. A field may end within a character.
-/

set_option autoImplicit false

namespace SlickSim

/-- `NULL_PRICE`, the largest 64-bit price. -/
def nullPrice : Int := 9223372036854775807

/-- The bytes of a fixed-width field up to its terminator. -/
structure FixedString (size : Nat) where
  bytes : List UInt8
  fits : bytes.length < size
  terminated : 0 ∉ bytes
deriving DecidableEq

namespace FixedString

variable {size : Nat}

def blank (positive : 0 < size) : FixedString size :=
  ⟨[], positive, List.not_mem_nil⟩

def isEmpty (value : FixedString size) : Bool :=
  value.bytes.isEmpty

theorem symbolName_room : 0 < 32 := by decide

theorem name_room : 0 < 37 := by decide

instance : Inhabited (FixedString 32) := ⟨blank symbolName_room⟩
instance : Inhabited (FixedString 37) := ⟨blank name_room⟩
instance : Inhabited (FixedString 256) := ⟨blank (by decide)⟩

instance : LawfulBEq (FixedString 32) := inferInstance
instance : LawfulBEq (List UInt8) := inferInstance

theorem ext_bytes {left right : FixedString size} (same : left.bytes = right.bytes) :
    left = right := by
  cases left
  cases right
  cases same
  rfl

end FixedString

/-- `copy_wire_field`: what fits of a string, as far as it is read back. -/
def FixedString.copyWireField (size : Nat) (positive : 0 < size) (value : List UInt8) : FixedString size where
  bytes := (value.take (size - 1)).takeWhile fun byte => decide (byte ≠ 0)
  fits := by
    have shorter := (List.takeWhile_sublist (fun byte => decide (byte ≠ 0)) (l := value.take (size - 1))).length_le
    rw [List.length_take] at shorter
    omega
  terminated := by
    intro member
    have kept := List.all_eq_true.mp List.all_takeWhile _ member
    exact absurd rfl (of_decide_eq_true kept)

abbrev Name := FixedString 37

abbrev SymbolName := FixedString 32

def Name.copyWireField (value : List UInt8) : Name :=
  FixedString.copyWireField 37 FixedString.name_room value

def SymbolName.copyWireField (value : List UInt8) : SymbolName :=
  FixedString.copyWireField 32 FixedString.symbolName_room value

/-- A string that `json::dump` can write. It throws at any other. -/
def IsUtf8 (bytes : List UInt8) : Prop :=
  bytes.toByteArray.IsValidUTF8

instance (bytes : List UInt8) : Decidable (IsUtf8 bytes) :=
  inferInstanceAs (Decidable (ByteArray.IsValidUTF8 _))

end SlickSim
