import Mathlib.Algebra.Order.BigOperators.Group.List
import Mathlib.Algebra.Order.Ring.Int
import Mathlib.Data.Finset.Card
import Mathlib.Data.Nat.ModEq

/-!
# The messages a session can send again

`order_gateway/retransmit_ring.hpp`: slots indexed by the remainder of a sequence number,
each with the number it was last claimed for; zero marks an empty one. A reference to a
slot is the slot's position.
-/

set_option autoImplicit false

namespace SlickSim

structure RetransmitSlot (messageCapacity : Nat) where
  seq : UInt32
  size : UInt16
  replayFlagOffset : UInt16
  data : Vector UInt8 messageCapacity
  deriving DecidableEq

def RetransmitSlot.empty (messageCapacity : Nat) : RetransmitSlot messageCapacity :=
  { seq := 0, size := 0, replayFlagOffset := 0, data := Vector.replicate messageCapacity 0 }

/-- What a caller does through the reference it is handed: it encodes a message, and leaves
the number alone. -/
structure Encoding (messageCapacity : Nat) where
  encode : RetransmitSlot messageCapacity → RetransmitSlot messageCapacity
  keepsSeq : ∀ slot, (encode slot).seq = slot.seq

structure RetransmitRing (messageCapacity : Nat) where
  slots : List (RetransmitSlot messageCapacity)

namespace RetransmitRing

variable {messageCapacity : Nat}

def ofCapacity (messageCapacity capacity : Nat) : RetransmitRing messageCapacity :=
  { slots := List.replicate (max capacity 1) (RetransmitSlot.empty messageCapacity) }

def isEmpty (ring : RetransmitRing messageCapacity) : Bool :=
  ring.slots.isEmpty

def capacity (ring : RetransmitRing messageCapacity) : Nat :=
  ring.slots.length

def position (ring : RetransmitRing messageCapacity) (seq : UInt32) : Nat :=
  seq.toNat % ring.capacity

def slot (ring : RetransmitRing messageCapacity) (seq : UInt32) : RetransmitSlot messageCapacity :=
  ring.slots.getD (ring.position seq) (RetransmitSlot.empty messageCapacity)

/-- `claim`, where the reference it returns is the position of `seq`. -/
def claim (ring : RetransmitRing messageCapacity) (seq : UInt32) : RetransmitRing messageCapacity :=
  { slots := ring.slots.set (ring.position seq) { ring.slot seq with seq } }

def encode (ring : RetransmitRing messageCapacity) (seq : UInt32) (encoding : Encoding messageCapacity) :
    RetransmitRing messageCapacity :=
  { slots := ring.slots.set (ring.position seq) (encoding.encode (ring.slot seq)) }

def find (ring : RetransmitRing messageCapacity) (seq : UInt32) : Option (RetransmitSlot messageCapacity) :=
  if seq = 0 || ring.isEmpty then none
  else if (ring.slot seq).seq = seq then some (ring.slot seq)
  else none

/-- The loop of `holds` from the offset `i`, with so many offsets to go. -/
def holdsFrom (ring : RetransmitRing messageCapacity) (first : UInt32) : UInt64 → Nat → Bool
  | _, 0 => true
  | i, remaining + 1 =>
      if (ring.find (first.toUInt64 + i).toUInt32).isNone then false
      else ring.holdsFrom first (i + 1) remaining

def holds (ring : RetransmitRing messageCapacity) (first count : UInt32) : Bool :=
  ring.holdsFrom first 0 count.toNat

def clear (ring : RetransmitRing messageCapacity) : RetransmitRing messageCapacity :=
  { slots := ring.slots.map fun slot => { slot with seq := 0 } }

@[simp] theorem capacity_ofCapacity (capacity : Nat) :
    (ofCapacity messageCapacity capacity).capacity = max capacity 1 :=
  List.length_replicate

section Claims

variable {ring : RetransmitRing messageCapacity} {seq other : UInt32} {encoding : Encoding messageCapacity}

@[simp] theorem capacity_claim : (ring.claim seq).capacity = ring.capacity :=
  List.length_set

@[simp] theorem capacity_encode : (ring.encode seq encoding).capacity = ring.capacity :=
  List.length_set

@[simp] theorem capacity_clear : ring.clear.capacity = ring.capacity :=
  List.length_map _

theorem isEmpty_eq_false (sized : 0 < ring.capacity) : ring.isEmpty = false :=
  List.isEmpty_eq_false_iff.mpr (List.ne_nil_of_length_pos sized)

theorem position_lt (sized : 0 < ring.capacity) (seq : UInt32) : ring.position seq < ring.capacity :=
  Nat.mod_lt _ sized

/-- Numbers less than the capacity apart have slots of their own. -/
theorem position_ne (below : other.toNat < seq.toNat) (near : seq.toNat < other.toNat + ring.capacity) :
    ring.position other ≠ ring.position seq := by
  intro same
  have divides : ring.capacity ∣ seq.toNat - other.toNat := (Nat.modEq_iff_dvd' below.le).mp same
  have reaches := Nat.le_of_dvd (by omega) divides
  omega

/-- A number as many slots below as there are has the same one. -/
theorem position_eq_of_add (apart : seq.toNat = other.toNat + ring.capacity) :
    ring.position other = ring.position seq := by
  rw [position, position, apart, Nat.add_mod_right]

theorem find_eq (sized : 0 < ring.capacity) (seq : UInt32) :
    ring.find seq = if seq ≠ 0 ∧ (ring.slot seq).seq = seq then some (ring.slot seq) else none := by
  rw [find, isEmpty_eq_false sized]
  split <;> split <;> simp_all

@[simp] theorem find_zero : ring.find 0 = none :=
  rfl

/-! What `claim` and the write through its reference leave in the slots. -/

private theorem slot_set (sized : 0 < ring.capacity) (value : RetransmitSlot messageCapacity) :
    RetransmitRing.slot { slots := ring.slots.set (ring.position seq) value } other =
      if ring.position seq = ring.position other then value else ring.slot other := by
  have inside : ring.position seq < ring.slots.length := position_lt sized seq
  have place : RetransmitRing.position { slots := ring.slots.set (ring.position seq) value } other =
      ring.position other := congrArg (other.toNat % ·) List.length_set
  rw [slot, slot, place, List.getD_eq_getElem?_getD, List.getElem?_set,
    List.getD_eq_getElem?_getD, if_pos inside]
  exact apply_ite (Option.getD · _) _ _ _

theorem slot_claim (sized : 0 < ring.capacity) : (ring.claim seq).slot other =
    if ring.position seq = ring.position other then { ring.slot seq with seq } else ring.slot other :=
  slot_set sized _

theorem slot_encode (sized : 0 < ring.capacity) : (ring.encode seq encoding).slot other =
    if ring.position seq = ring.position other then encoding.encode (ring.slot seq) else ring.slot other :=
  slot_set sized _

theorem position_claim : (ring.claim seq).position other = ring.position other := by
  rw [position, capacity_claim, position]

theorem slot_claim_encode (sized : 0 < ring.capacity) : ((ring.claim seq).encode seq encoding).slot other =
    if ring.position seq = ring.position other then encoding.encode { ring.slot seq with seq }
    else ring.slot other := by
  rw [slot_encode (capacity_claim.symm ▸ sized), position_claim, position_claim, slot_claim sized,
    if_pos rfl, slot_claim sized]
  split
  · rfl
  · rfl

theorem find_claim_encode (sized : 0 < ring.capacity) (counted : seq ≠ 0) :
    ((ring.claim seq).encode seq encoding).find seq =
      some (((ring.claim seq).encode seq encoding).slot seq) := by
  rw [find_eq (by simpa using sized), if_pos]
  refine ⟨counted, ?_⟩
  rw [slot_claim_encode sized, if_pos rfl, encoding.keepsSeq]

theorem find_overwritten (sized : 0 < ring.capacity) (same : ring.position seq = ring.position other)
    (differ : other ≠ seq) : ((ring.claim seq).encode seq encoding).find other = none := by
  rw [find_eq (by simpa using sized), if_neg]
  rintro ⟨-, numbered⟩
  rw [slot_claim_encode sized, if_pos same, encoding.keepsSeq] at numbered
  exact differ numbered.symm

theorem find_spared (sized : 0 < ring.capacity) (apart : ring.position seq ≠ ring.position other) :
    ((ring.claim seq).encode seq encoding).find other = ring.find other := by
  rw [find_eq (by simpa using sized), slot_claim_encode sized, if_neg apart, find_eq sized]

theorem find_eq_none (emptied : ∀ slot ∈ ring.slots, slot.seq = 0) (seq : UInt32) : ring.find seq = none := by
  have marked : (ring.slot seq).seq = 0 := by
    rw [slot, List.getD_eq_getElem?_getD]
    cases read : ring.slots[ring.position seq]? with
    | none => rfl
    | some slot => exact emptied slot (List.mem_of_getElem? read)
  rw [find, marked]
  split
  · rfl
  · rename_i used
    exact if_neg fun numbered => used (by rw [← numbered]; rfl)

theorem find_clear (seq : UInt32) : ring.clear.find seq = none := by
  apply find_eq_none
  intro slot inside
  obtain ⟨before, -, rfl⟩ := List.mem_map.mp inside
  rfl

theorem find_ofCapacity (capacity : Nat) (seq : UInt32) :
    (ofCapacity messageCapacity capacity).find seq = none := by
  apply find_eq_none
  intro slot inside
  rw [(List.mem_replicate.mp inside).2]
  rfl

/-! ## Ranges -/

theorem holdsFrom_iff {first : UInt32} {i : UInt64} {remaining : Nat} :
    ring.holdsFrom first i remaining = true ↔
      ∀ k < remaining, (ring.find (first + (i + UInt64.ofNat k).toUInt32)).isSome := by
  induction remaining generalizing i with
  | zero => simp [holdsFrom]
  | succ remaining ih =>
      have next : ∀ k, i + 1 + UInt64.ofNat k = i + UInt64.ofNat (k + 1) := by
        intro k
        rw [UInt64.ofNat_add, UInt64.add_assoc, UInt64.add_comm 1]
        rfl
      have cast : (first.toUInt64 + i).toUInt32 = first + (i + UInt64.ofNat 0).toUInt32 := by
        rw [UInt64.toUInt32_add, UInt32.toUInt32_toUInt64]
        simp
      rw [Nat.forall_lt_succ_left, holdsFrom, cast]
      cases ring.find (first + (i + UInt64.ofNat 0).toUInt32) with
      | none => simp
      | some slot => simp only [Option.isNone_some, Bool.false_eq_true, if_false, ih, next, Option.isSome_some, true_and]

/-- The range is counted by its offsets, none of which wraps. -/
theorem holds_iff {first count : UInt32} :
    ring.holds first count = true ↔ ∀ i < count, (ring.find (first + i)).isSome := by
  rw [holds, holdsFrom_iff]
  constructor
  · intro held i within
    have found := held i.toNat within
    rwa [UInt64.zero_add, UInt64.toUInt32_ofNat', UInt32.ofNat_toNat] at found
  · intro held k within
    have short : k < 2 ^ 32 := within.trans count.toNat_lt
    rw [UInt64.zero_add, UInt64.toUInt32_ofNat']
    apply held
    rwa [UInt32.lt_iff_toNat_lt, UInt32.toNat_ofNat_of_lt' short]

theorem toNat_offset (first : UInt32) {count : UInt32} {offset : Nat} (short : offset < count.toNat) :
    UInt32.ofNat offset < count ∧ (first + UInt32.ofNat offset).toNat = (first.toNat + offset) % 2 ^ 32 := by
  have small : (UInt32.ofNat offset).toNat = offset := UInt32.toNat_ofNat_of_lt' (short.trans count.toNat_lt)
  rw [UInt32.lt_iff_toNat_lt, UInt32.toNat_add, small]
  exact ⟨short, rfl⟩

/-- A range that is held stops short of zero, where numbers would begin again. -/
theorem within_sequence {first count : UInt32} (held : ∀ i < count, (ring.find (first + i)).isSome) :
    first.toNat + count.toNat ≤ 2 ^ 32 := by
  by_contra wraps
  have bound := first.toNat_lt
  obtain ⟨inside, place⟩ := toNat_offset first (show 2 ^ 32 - first.toNat < count.toNat by omega)
  have wrapped : first + UInt32.ofNat (2 ^ 32 - first.toNat) = 0 := by
    apply UInt32.toNat_inj.mp
    rw [place, UInt32.toNat_zero]
    omega
  have found := held _ inside
  rw [wrapped, find_zero] at found
  cases found

end Claims

end RetransmitRing

end SlickSim
