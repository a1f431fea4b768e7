import Mathlib.Algebra.Order.BigOperators.Group.List
import Mathlib.Algebra.Order.Ring.Int
import Mathlib.Data.Finset.Card
import Mathlib.Data.Nat.ModEq
import Mathlib.Logic.Function.Basic

/-!
# The ring buffer

`utils/ring_buffer.hpp`: two free-running 64-bit indices into a block of cells whose
number is a power of two. `Stores` says which items a buffer stores, oldest first.
-/

set_option autoImplicit false

namespace SlickSim

/-- `RingBuffer`. `head` is where the next item goes, `tail` where the oldest one is. -/
structure RingBuffer (α : Type) where
  capacity : UInt64
  buffer : UInt64 → α
  head : UInt64
  tail : UInt64
  /-- What the constructor asserts, together with a capacity that is not zero. -/
  powerOfTwo : ∃ exponent < 64, capacity.toNat = 2 ^ exponent

namespace RingBuffer

variable {α : Type}

def empty [Inhabited α] (capacity : UInt64) (powerOfTwo : ∃ exponent < 64, capacity.toNat = 2 ^ exponent) :
    RingBuffer α :=
  { capacity, buffer := fun _ => default, head := 0, tail := 0, powerOfTwo }

def mask (ring : RingBuffer α) : UInt64 :=
  ring.capacity - 1

def slot (ring : RingBuffer α) (index : UInt64) : UInt64 :=
  index &&& ring.mask

def size (ring : RingBuffer α) : UInt64 :=
  ring.head - ring.tail

def isEmpty (ring : RingBuffer α) : Bool :=
  ring.head = ring.tail

def isFull (ring : RingBuffer α) : Bool :=
  ring.size = ring.capacity

/-- `operator[]`, where `none` is the null pointer. -/
def get (ring : RingBuffer α) (index : UInt64) : Option α :=
  if ring.size ≤ index then none else some (ring.buffer (ring.slot (ring.tail + index)))

def write (ring : RingBuffer α) (item : α) : RingBuffer α :=
  { ring with
    buffer := Function.update ring.buffer (ring.slot ring.head) item
    head := ring.head + 1 }

/-- The shared body of `push` and `emplace`: the oldest item gives way when the new head
comes to the cell of the tail. -/
def overwrite (ring : RingBuffer α) (item : α) : RingBuffer α :=
  let written := ring.write item
  if written.slot written.head = written.slot written.tail then { written with tail := written.tail + 1 }
  else written

/-- The shared body of `try_push` and `try_emplace`. -/
def tryWrite (ring : RingBuffer α) (item : α) : Bool × RingBuffer α :=
  if ring.size = ring.capacity then (false, ring) else (true, ring.write item)

def push (ring : RingBuffer α) (item : α) : RingBuffer α :=
  ring.overwrite item

def emplace (ring : RingBuffer α) (item : α) : RingBuffer α :=
  ring.overwrite item

def tryPush (ring : RingBuffer α) (item : α) : Bool × RingBuffer α :=
  ring.tryWrite item

def tryEmplace (ring : RingBuffer α) (item : α) : Bool × RingBuffer α :=
  ring.tryWrite item

/-- `pop_front`, with the item it copies out. -/
def popFront (ring : RingBuffer α) : Option α × RingBuffer α :=
  if ring.isEmpty then (none, ring)
  else (some (ring.buffer (ring.slot ring.tail)), { ring with tail := ring.tail + 1 })

def popBack (ring : RingBuffer α) : Option α × RingBuffer α :=
  if ring.isEmpty then (none, ring)
  else (some (ring.buffer (ring.slot (ring.head - 1))), { ring with head := ring.head - 1 })

/-! ## Slots -/

section Slots

variable {ring : RingBuffer α} {first i j : Nat}

theorem capacity_pos (ring : RingBuffer α) : 0 < ring.capacity.toNat := by
  obtain ⟨exponent, -, two⟩ := ring.powerOfTwo
  rw [two]
  exact Nat.two_pow_pos exponent

theorem slot_toNat (ring : RingBuffer α) (index : UInt64) :
    (ring.slot index).toNat = index.toNat % ring.capacity.toNat := by
  obtain ⟨exponent, -, two⟩ := ring.powerOfTwo
  have one : (1 : UInt64) ≤ ring.capacity := UInt64.le_iff_toNat_le.mpr ring.capacity_pos
  rw [slot, mask, UInt64.toNat_and, UInt64.toNat_sub_of_le _ _ one, two]
  exact Nat.and_two_pow_sub_one_eq_mod _ _

/-- The capacity divides `2 ^ 64`, so an index that wraps still names its cell. -/
theorem slot_ofNat (ring : RingBuffer α) (index : Nat) :
    (ring.slot (UInt64.ofNat index)).toNat = index % ring.capacity.toNat := by
  obtain ⟨exponent, below, two⟩ := ring.powerOfTwo
  rw [slot_toNat, UInt64.toNat_ofNat', two]
  exact Nat.mod_mod_of_dvd _ (Nat.pow_dvd_pow 2 below.le)

theorem slot_eq_iff : ring.slot (UInt64.ofNat i) = ring.slot (UInt64.ofNat j) ↔
    i % ring.capacity.toNat = j % ring.capacity.toNat := by
  rw [← UInt64.toNat_inj, slot_ofNat, slot_ofNat]

/-- Of indices less than a turn apart, no two share a cell. -/
theorem slot_injective (left : i < ring.capacity.toNat) (right : j < ring.capacity.toNat)
    (same : ring.slot (UInt64.ofNat (first + i)) = ring.slot (UInt64.ofNat (first + j))) : i = j := by
  have turned : i ≡ j [MOD ring.capacity.toNat] := Nat.ModEq.add_left_cancel' first (slot_eq_iff.mp same)
  rwa [Nat.ModEq, Nat.mod_eq_of_lt left, Nat.mod_eq_of_lt right] at turned

end Slots

/-! ## What a buffer stores -/

/-- The buffer stores the items, oldest first. `first` counts the indices the tail has passed. -/
structure StoresFrom (ring : RingBuffer α) (first : Nat) (items : List α) : Prop where
  tail : ring.tail = UInt64.ofNat first
  head : ring.head = UInt64.ofNat (first + items.length)
  fits : items.length ≤ ring.capacity.toNat
  cells : ∀ i, (inside : i < items.length) → ring.buffer (ring.slot (UInt64.ofNat (first + i))) = items[i]

/-- What every operation keeps. -/
def Stores (ring : RingBuffer α) (items : List α) : Prop :=
  ∃ first, ring.StoresFrom first items

theorem empty_stores [Inhabited α] (capacity : UInt64)
    (powerOfTwo : ∃ exponent < 64, capacity.toNat = 2 ^ exponent) : (empty (α := α) capacity powerOfTwo).Stores [] :=
  ⟨0, rfl, rfl, Nat.zero_le _, fun _ inside => absurd inside (Nat.not_lt_zero _)⟩

section Stores

variable {ring : RingBuffer α} {first : Nat} {items : List α}

theorem StoresFrom.size_toNat (stores : ring.StoresFrom first items) : ring.size.toNat = items.length := by
  have fits := stores.fits
  have bound := ring.capacity.toNat_lt
  rw [size, stores.head, stores.tail, UInt64.toNat_sub, UInt64.toNat_ofNat', UInt64.toNat_ofNat']
  omega

theorem StoresFrom.isEmpty_eq (stores : ring.StoresFrom first items) : ring.isEmpty = items.isEmpty := by
  have fits := stores.fits
  have bound := ring.capacity.toNat_lt
  rw [Bool.eq_iff_iff, isEmpty, decide_eq_true_iff, List.isEmpty_iff, ← List.length_eq_zero_iff,
    stores.head, stores.tail, ← UInt64.toNat_inj, UInt64.toNat_ofNat', UInt64.toNat_ofNat']
  omega

theorem StoresFrom.size_eq_iff (stores : ring.StoresFrom first items) :
    ring.size = ring.capacity ↔ items.length = ring.capacity.toNat := by
  rw [← UInt64.toNat_inj, stores.size_toNat]

theorem StoresFrom.get_eq (stores : ring.StoresFrom first items) (index : UInt64) :
    ring.get index = items[index.toNat]? := by
  rw [get]
  split
  case isTrue beyond =>
    rw [UInt64.le_iff_toNat_le, stores.size_toNat] at beyond
    exact (List.getElem?_eq_none beyond).symm
  case isFalse inside =>
    rw [UInt64.le_iff_toNat_le, stores.size_toNat] at inside
    have named : ring.tail + index = UInt64.ofNat (first + index.toNat) := by
      rw [stores.tail, UInt64.ofNat_add, UInt64.ofNat_toNat]
    rw [named, stores.cells index.toNat (by omega), List.getElem?_eq_getElem]

theorem StoresFrom.write (stores : ring.StoresFrom first items) (free : items.length < ring.capacity.toNat)
    (item : α) : (ring.write item).StoresFrom first (items ++ [item]) where
  tail := stores.tail
  head := by
    rw [List.length_append, List.length_singleton, ← Nat.add_assoc, UInt64.ofNat_add, ← stores.head]
    rfl
  fits := by
    rw [List.length_append]
    exact free
  cells := by
    intro i inside
    rw [List.length_append, List.length_singleton] at inside
    change Function.update ring.buffer (ring.slot ring.head) item (ring.slot (UInt64.ofNat (first + i))) = _
    rw [stores.head]
    rcases Nat.lt_succ_iff_lt_or_eq.mp inside with older | rfl
    · have apart : ring.slot (UInt64.ofNat (first + i)) ≠ ring.slot (UInt64.ofNat (first + items.length)) :=
        fun same => Nat.ne_of_lt older (slot_injective (Nat.lt_trans older free) free same)
      rw [Function.update_of_ne apart, stores.cells i older, List.getElem_append_left older]
    · rw [Function.update_self, List.getElem_concat_length rfl]

theorem StoresFrom.pass {item : α} (stores : ring.StoresFrom first (item :: items)) :
    ({ ring with tail := ring.tail + 1 } : RingBuffer α).StoresFrom (first + 1) items where
  tail := by
    rw [UInt64.ofNat_add, ← stores.tail]
    rfl
  head := by
    rw [Nat.add_right_comm]
    exact stores.head
  fits := Nat.le_of_succ_le stores.fits
  cells := by
    intro i inside
    rw [Nat.add_right_comm]
    exact stores.cells (i + 1) (Nat.succ_lt_succ inside)

theorem StoresFrom.retreat {item : α} (stores : ring.StoresFrom first (items ++ [item])) :
    ({ ring with head := ring.head - 1 } : RingBuffer α).StoresFrom first items where
  tail := stores.tail
  head := by
    have newest := stores.head
    rw [List.length_append, List.length_singleton, ← Nat.add_assoc, UInt64.ofNat_add] at newest
    change ring.head - 1 = _
    rw [newest]
    exact UInt64.add_sub_cancel _ _
  fits := Nat.le_of_succ_le (List.length_append.symm.trans_le stores.fits)
  cells := by
    intro i inside
    have within : i < (items ++ [item]).length := by rw [List.length_append]; omega
    exact (stores.cells i within).trans (List.getElem_append_left inside)

/-- After a write the head is back at the cell of the tail when it made whole turns. -/
theorem StoresFrom.turned_iff (stores : ring.StoresFrom first items) (item : α) :
    (ring.write item).slot (ring.write item).head = (ring.write item).slot (ring.write item).tail ↔
      ring.capacity.toNat ∣ items.length + 1 := by
  have head : (ring.write item).head = UInt64.ofNat (first + (items.length + 1)) := by
    rw [← Nat.add_assoc, UInt64.ofNat_add, ← stores.head]
    rfl
  have tail : (ring.write item).tail = UInt64.ofNat first := stores.tail
  rw [head, tail, slot_eq_iff]
  exact Nat.add_modEq_left_iff

/-! ## What each operation does to it -/

/-- With a cell to spare after the write an append keeps everything; without one it drops the
oldest item, so that no append fills the last cell. -/
theorem StoresFrom.overwrite (stores : ring.StoresFrom first items) (item : α)
    (free : items.length < ring.capacity.toNat) :
    (ring.overwrite item).Stores ((items ++ [item]).drop (items.length + 2 - ring.capacity.toNat)) := by
  have written := stores.write free item
  rw [RingBuffer.overwrite]
  simp only [stores.turned_iff]
  by_cases last : items.length + 1 = ring.capacity.toNat
  · rw [if_pos (Dvd.intro_left 1 (by omega)), show items.length + 2 - ring.capacity.toNat = 1 by omega]
    cases items with
    | nil => exact ⟨first + 1, written.pass⟩
    | cons oldest rest => exact ⟨first + 1, written.pass⟩
  · rw [if_neg (Nat.not_dvd_of_pos_of_lt (Nat.succ_pos _) (by omega)),
      show items.length + 2 - ring.capacity.toNat = 0 by omega]
    exact ⟨first, written⟩

/-- A single cell that holds its item: the next one takes its place. -/
theorem StoresFrom.overwrite_single (stores : ring.StoresFrom first items) (item : α)
    (single : ring.capacity.toNat = 1) (full : items.length = 1) : (ring.overwrite item).Stores [item] := by
  rw [RingBuffer.overwrite]
  simp only [stores.turned_iff]
  rw [if_pos (single.symm ▸ one_dvd (items.length + 1))]
  refine ⟨first + 1, ?_, ?_, ?_, ?_⟩
  · change ring.tail + 1 = _
    rw [stores.tail, UInt64.ofNat_add]
    rfl
  · change ring.head + 1 = _
    rw [stores.head, full, List.length_singleton, UInt64.ofNat_add (first + 1)]
    rfl
  · exact single.ge
  · intro i inside
    obtain rfl : i = 0 := Nat.lt_one_iff.mp inside
    change Function.update ring.buffer (ring.slot ring.head) item (ring.slot (UInt64.ofNat (first + 1))) = item
    rw [stores.head, full, Function.update_self]

/-- An append to a full buffer of more than one cell overwrites the oldest item's cell and
still counts it: the buffer then counts one item more than it has cells. -/
theorem StoresFrom.overwrite_full (stores : ring.StoresFrom first items) (item : α)
    (several : ring.capacity.toNat ≠ 1) (full : items.length = ring.capacity.toNat) :
    (ring.overwrite item).size.toNat = ring.capacity.toNat + 1 := by
  have positive := ring.capacity_pos
  obtain ⟨exponent, below, two⟩ := ring.powerOfTwo
  have bound : ring.capacity.toNat ≤ 2 ^ 63 := two ▸ Nat.pow_le_pow_right (by omega) (by omega)
  have apart : ¬ring.capacity.toNat ∣ items.length + 1 := by
    rw [full, Nat.dvd_add_right (dvd_refl _), Nat.dvd_one]
    exact several
  rw [RingBuffer.overwrite]
  simp only [stores.turned_iff]
  rw [if_neg apart]
  change (ring.head + 1 - ring.tail).toNat = _
  rw [stores.head, stores.tail, full, UInt64.toNat_sub, UInt64.toNat_add, UInt64.toNat_ofNat', UInt64.toNat_ofNat']
  have one : (1 : UInt64).toNat = 1 := rfl
  omega

theorem Stores.tryWrite (stores : ring.Stores items) (item : α) :
    (ring.tryWrite item).1 = decide (items.length ≠ ring.capacity.toNat) ∧
      (ring.tryWrite item).2.Stores (if items.length = ring.capacity.toNat then items else items ++ [item]) := by
  obtain ⟨first, stores⟩ := stores
  have fits := stores.fits
  by_cases full : items.length = ring.capacity.toNat
  · rw [RingBuffer.tryWrite, if_pos (stores.size_eq_iff.mpr full), if_pos full]
    exact ⟨(decide_eq_false (not_not.mpr full)).symm, first, stores⟩
  · rw [RingBuffer.tryWrite, if_neg (mt stores.size_eq_iff.mp full), if_neg full]
    exact ⟨(decide_eq_true full).symm, first, stores.write (by omega) item⟩

theorem Stores.popFront (stores : ring.Stores items) :
    ring.popFront.1 = items.head? ∧ ring.popFront.2.Stores items.tail := by
  obtain ⟨first, stores⟩ := stores
  rw [RingBuffer.popFront, stores.isEmpty_eq]
  cases items with
  | nil => exact ⟨rfl, first, stores⟩
  | cons item items =>
      refine ⟨?_, first + 1, stores.pass⟩
      have oldest := stores.cells 0 (Nat.succ_pos _)
      rw [Nat.add_zero, ← stores.tail] at oldest
      exact congrArg some oldest

theorem Stores.popBack (stores : ring.Stores items) :
    ring.popBack.1 = items.getLast? ∧ ring.popBack.2.Stores items.dropLast := by
  obtain ⟨first, stores⟩ := stores
  rw [RingBuffer.popBack, stores.isEmpty_eq]
  induction items using List.reverseRecOn with
  | nil => exact ⟨rfl, first, stores⟩
  | append_singleton items item =>
      have before := stores.retreat
      have filled : (items ++ [item]).isEmpty = false := by
        rw [List.isEmpty_eq_false_iff]
        exact List.append_ne_nil_of_right_ne_nil _ (List.cons_ne_nil _ _)
      rw [filled, List.dropLast_concat, List.getLast?_concat]
      refine ⟨?_, first, before⟩
      have newest := stores.cells items.length (by rw [List.length_append]; exact Nat.lt_succ_self _)
      rw [← before.head, List.getElem_concat_length rfl] at newest
      exact congrArg some newest

theorem overwrite_capacity (ring : RingBuffer α) (item : α) : (ring.overwrite item).capacity = ring.capacity := by
  rw [RingBuffer.overwrite]
  split <;> rfl

/-- After pushes the last items are kept, one less than there are cells. -/
theorem Stores.pushes (stores : ring.Stores items) (free : items.length < ring.capacity.toNat) (pushed : List α) :
    (pushed.foldl push ring).Stores
      ((items ++ pushed).drop (items.length + pushed.length + 1 - ring.capacity.toNat)) := by
  induction pushed generalizing ring items with
  | nil =>
      rw [List.append_nil, List.length_nil, show items.length + 0 + 1 - ring.capacity.toNat = 0 by omega,
        List.drop_zero]
      exact stores
  | cons item pushed ih =>
      obtain ⟨first, before⟩ := stores
      have positive := ring.capacity_pos
      have same : (ring.push item).capacity = ring.capacity := ring.overwrite_capacity item
      have length : ((items ++ [item]).drop (items.length + 2 - ring.capacity.toNat)).length =
          items.length + 1 - (items.length + 2 - ring.capacity.toNat) := by
        rw [List.length_drop, List.length_append, List.length_singleton]
      have next := @ih (ring.push item) _ (before.overwrite item free) (by rw [same, length]; omega)
      have within : items.length + 2 - ring.capacity.toNat ≤ (items ++ [item]).length := by
        rw [List.length_append, List.length_singleton]
        omega
      rw [same, length, ← List.drop_append_of_le_length within, List.append_assoc, List.singleton_append,
        List.drop_drop] at next
      rw [List.foldl_cons, List.length_cons]
      convert next using 2
      omega

end Stores

end RingBuffer

end SlickSim
