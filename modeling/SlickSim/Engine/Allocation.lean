import Mathlib.Algebra.Order.BigOperators.Group.List
import Mathlib.Algebra.Order.Group.Int
import SlickSim.Engine.ProRata

/-!
# Pro-rata allocations

Whatever the lot size, the minimum and the FIFO slice, `allocate` gives no order
more than it has and hands out all of the aggressor's quantity the level can
take.
-/

set_option autoImplicit false

namespace SlickSim

namespace Allocation

/-- An allocation no larger than its order. -/
def Within (item : Allocation) : Prop :=
  0 ≤ item.qty ∧ item.qty ≤ item.size

structure SameOrder (left right : Allocation) : Prop where
  orderId : left.orderId = right.orderId
  size : left.size = right.size
  order : left.order = right.order

theorem SameOrder.refl (item : Allocation) : item.SameOrder item :=
  ⟨rfl, rfl, rfl⟩

theorem SameOrder.trans {first second third : Allocation} (left : first.SameOrder second)
    (right : second.SameOrder third) : first.SameOrder third :=
  ⟨left.orderId.trans right.orderId, left.size.trans right.size, left.order.trans right.order⟩

end Allocation

open Allocation

def allocatedQty (items : List Allocation) : Int :=
  (items.map Allocation.qty).sum

def allocatableQty (items : List Allocation) : Int :=
  (items.map Allocation.size).sum

@[simp] theorem allocatedQty_cons (item : Allocation) (items : List Allocation) :
    allocatedQty (item :: items) = item.qty + allocatedQty items := by
  simp [allocatedQty]

@[simp] theorem allocatableQty_cons (item : Allocation) (items : List Allocation) :
    allocatableQty (item :: items) = item.size + allocatableQty items := by
  simp [allocatableQty]

/-- One allocation is another one with the quantities changed. -/
abbrev Reallocates (after before : List Allocation) : Prop :=
  List.Forall₂ SameOrder after before

theorem Reallocates.size {after before : List Allocation} (same : Reallocates after before) :
    allocatableQty after = allocatableQty before := by
  induction same with
  | nil => rfl
  | cons head _ ih => rw [allocatableQty_cons, allocatableQty_cons, head.size, ih]

theorem Reallocates.trans {first second third : List Allocation} (left : Reallocates first second)
    (right : Reallocates second third) : Reallocates first third := by
  induction left generalizing third with
  | nil => exact right
  | cons head _ ih =>
      cases right with
      | cons next rest => exact .cons (head.trans next) (ih rest)

namespace ProRata

variable {config : ProRataConfig} {items : List Allocation}

theorem floorLot_le {qty : Int} : floorLot config qty ≤ qty := by
  have := Int.emod_nonneg qty (Int.ne_of_gt config.lotSize_positive)
  unfold floorLot
  omega

theorem floorLot_nonneg {qty : Int} (nonneg : 0 ≤ qty) : 0 ≤ floorLot config qty := by
  have lots := Int.mul_nonneg config.lotSize_positive.le
    (Int.ediv_nonneg nonneg config.lotSize_positive.le)
  have whole := Int.mul_ediv_add_emod qty config.lotSize
  unfold floorLot
  omega

/-- `takeInQueue` hands out what it can and returns the rest. -/
theorem takeInQueue_spec {left : Int} (within : ∀ item ∈ items, item.Within) (some_left : 0 ≤ left) :
    let (taken, rest) := takeInQueue items left
    Reallocates taken items ∧ (∀ item ∈ taken, item.Within) ∧ 0 ≤ rest ∧ rest ≤ left ∧
      allocatedQty taken + rest = allocatedQty items + left ∧
      (rest = 0 ∨ allocatedQty taken = allocatableQty items) := by
  induction items generalizing left with
  | nil => exact ⟨.nil, by simp, some_left, le_rfl, rfl, .inr rfl⟩
  | cons head tail ih =>
      obtain ⟨nonneg, fits⟩ := within head List.mem_cons_self
      have tailWithin : ∀ item ∈ tail, item.Within :=
        fun item member => within item (List.mem_cons_of_mem _ member)
      have below := ih tailWithin (show 0 ≤ left - min left (head.size - head.qty) by omega)
      unfold takeInQueue
      dsimp only at below ⊢
      obtain ⟨same, inside, restNonneg, restLess, balance, exhausted⟩ := below
      refine ⟨.cons ⟨rfl, rfl, rfl⟩ same, ?_, restNonneg, by omega, ?_, ?_⟩
      · intro item member
        rcases List.mem_cons.mp member with rfl | member
        · exact ⟨by simp only; omega, by simp only; omega⟩
        · exact inside item member
      · simp only [allocatedQty_cons]
        omega
      · simp only [allocatedQty_cons, allocatableQty_cons]
        omega

theorem allocatedQty_takeInQueue {left : Int} (within : ∀ item ∈ items, item.Within)
    (some_left : 0 ≤ left) (room : allocatedQty items + left ≤ allocatableQty items) :
    Reallocates (takeInQueue items left).1 items ∧
      (∀ item ∈ (takeInQueue items left).1, item.Within) ∧
      allocatedQty (takeInQueue items left).1 = allocatedQty items + left := by
  obtain ⟨same, inside, nonneg, -, balance, exhausted⟩ := takeInQueue_spec within some_left
  exact ⟨same, inside, by omega⟩

theorem shareFor_bounds (config : ProRataConfig) {proRata base : Int} {item : Allocation} (within : item.Within)
    (nonneg : 0 ≤ proRata) (positive : 0 < base) (enough : proRata ≤ base) :
    0 ≤ shareFor config proRata base item ∧
      shareFor config proRata base item ≤ item.size - item.qty ∧
      base * shareFor config proRata base item ≤ proRata * (item.size - item.qty) := by
  obtain ⟨-, fits⟩ := within
  have room : 0 ≤ item.size - item.qty := by omega
  have product := Int.mul_nonneg nonneg room
  have exact_nonneg : 0 ≤ shareOf proRata (item.size - item.qty) base :=
    Int.ediv_nonneg product positive.le
  have exact_mul : base * shareOf proRata (item.size - item.qty) base ≤
      proRata * (item.size - item.qty) := by
    rw [shareOf, Int.mul_comm base]
    exact Int.ediv_mul_le _ positive.ne'
  have floored : floorLot config (shareOf proRata (item.size - item.qty) base) ≤
      shareOf proRata (item.size - item.qty) base := floorLot_le
  have scaled := Int.mul_le_mul_of_nonneg_left floored positive.le
  have capped : shareOf proRata (item.size - item.qty) base ≤ item.size - item.qty := by
    have := Int.mul_le_mul_of_nonneg_right enough room
    exact Int.le_of_mul_le_mul_left (by omega) positive
  unfold shareFor
  dsimp only
  split
  · exact ⟨le_rfl, room, by simpa using product⟩
  · exact ⟨floorLot_nonneg exact_nonneg, floored.trans capped, scaled.trans exact_mul⟩

/-- The shares of a level together are no larger than what is shared. -/
theorem sum_shareFor_le (config : ProRataConfig) {proRata base : Int} (within : ∀ item ∈ items, item.Within)
    (nonneg : 0 ≤ proRata) (positive : 0 < base) (enough : proRata ≤ base) :
    base * (items.map (shareFor config proRata base)).sum ≤
      proRata * (allocatableQty items - allocatedQty items) := by
  induction items with
  | nil => simp [allocatableQty, allocatedQty]
  | cons head tail ih =>
      have below := ih fun item member => within item (List.mem_cons_of_mem _ member)
      obtain ⟨-, -, share⟩ := shareFor_bounds config (within head List.mem_cons_self)
        nonneg positive enough
      rw [List.map_cons, List.sum_cons, Int.mul_add, allocatableQty_cons, allocatedQty_cons]
      have split : proRata * (head.size + allocatableQty tail - (head.qty + allocatedQty tail)) =
          proRata * (head.size - head.qty) + proRata * (allocatableQty tail - allocatedQty tail) := by
        rw [← Int.mul_add]
        congr 1
        omega
      omega

theorem sum_shareFor_le_proRata (config : ProRataConfig) {proRata base : Int}
    (within : ∀ item ∈ items, item.Within) (nonneg : 0 ≤ proRata) (positive : 0 < base) (enough : proRata ≤ base)
    (whole : base = allocatableQty items - allocatedQty items) :
    (items.map (shareFor config proRata base)).sum ≤ proRata := by
  have bounded := sum_shareFor_le config within nonneg positive enough
  rw [← whole, Int.mul_comm proRata] at bounded
  exact Int.le_of_mul_le_mul_left bounded positive

def fifoSlice (config : ProRataConfig) (qty : Int) : Int :=
  if 0 < config.fifoPercent then floorLot config (shareOf qty config.fifoPercent 100) else 0

/-- The shares the pro-rata pass gives out of what is left, unless the slice took it all. -/
def sharesOf (config : ProRataConfig) (total qty left : Int) (items : List Allocation) : List Int :=
  if 0 < left then items.map (shareFor config left (total - (qty - left))) else items.map fun _ => 0

def shareOut (config : ProRataConfig) (total qty left : Int) (items : List Allocation) : List Allocation :=
  if 0 < left then
    items.map fun item => { item with qty := item.qty + shareFor config left (total - (qty - left)) item }
  else items

theorem allocatedQty_share (config : ProRataConfig) (proRata base : Int) (items : List Allocation) :
    allocatedQty (items.map fun item => { item with qty := item.qty + shareFor config proRata base item }) =
      allocatedQty items + (items.map (shareFor config proRata base)).sum := by
  unfold allocatedQty
  rw [List.map_map, ← List.sum_map_add]
  rfl

theorem shareOut_spec (config : ProRataConfig) {total qty left : Int} (within : ∀ item ∈ items, item.Within)
    (size : allocatableQty items = total) (taken : allocatedQty items = qty - left) (nonneg : 0 ≤ left)
    (partly : qty < total) :
    (∀ item ∈ shareOut config total qty left items, item.Within) ∧
      allocatableQty (shareOut config total qty left items) = total ∧
      allocatedQty (shareOut config total qty left items) =
        qty - left + (sharesOf config total qty left items).sum ∧
      (sharesOf config total qty left items).sum ≤ left := by
  unfold shareOut sharesOf
  by_cases more : 0 < left
  · rw [if_pos more, if_pos more]
    refine ⟨?_, ?_, ?_, sum_shareFor_le_proRata config within nonneg (by omega) (by omega) (by omega)⟩
    · intro item member
      obtain ⟨old, inside, rfl⟩ := List.mem_map.mp member
      obtain ⟨shareNonneg, shareFits, -⟩ := shareFor_bounds config (within old inside) nonneg
        (show 0 < total - (qty - left) by omega) (by omega)
      obtain ⟨oldNonneg, -⟩ := within old inside
      exact ⟨by simp only; omega, by simp only; omega⟩
    · rw [← size]
      unfold allocatableQty
      rw [List.map_map]
      rfl
    · rw [allocatedQty_share, taken]
  · rw [if_neg more, if_neg more, List.sum_map_zero]
    exact ⟨within, size, by omega, nonneg⟩

theorem shareOut_reallocates (config : ProRataConfig) (total qty left : Int) (items : List Allocation) :
    Reallocates (shareOut config total qty left items) items := by
  unfold shareOut
  split
  · exact List.forall₂_map_left_iff.mpr (List.forall₂_same.mpr fun _ _ => ⟨rfl, rfl, rfl⟩)
  · exact List.forall₂_same.mpr fun item _ => .refl item

theorem allocatedQty_shareOut (config : ProRataConfig) (total qty left : Int) (items : List Allocation) :
    allocatedQty (shareOut config total qty left items) - allocatedQty items =
      (sharesOf config total qty left items).sum := by
  unfold shareOut sharesOf
  split
  · rw [allocatedQty_share]
    omega
  · rw [List.sum_map_zero, Int.sub_self]

theorem allocate_passes (config : ProRataConfig) {qty : Int} (partly : qty < allocatableQty items) :
    allocate config items qty =
      let fifo := fifoSlice config qty
      let sliced := (takeInQueue items fifo).1
      (takeInQueue (shareOut config (allocatableQty items) qty (qty - fifo) sliced)
        (qty - fifo - (sharesOf config (allocatableQty items) qty (qty - fifo) sliced).sum)).1 := by
  dsimp only
  rw [← allocatedQty_shareOut]
  unfold allocate
  exact if_neg (show ¬ qty ≥ (items.map Allocation.size).sum from Int.not_le.mpr partly)

theorem fifoSlice_bounds (config : ProRataConfig) {qty : Int} (nonneg : 0 ≤ qty) :
    0 ≤ fifoSlice config qty ∧ fifoSlice config qty ≤ qty := by
  have percent : (config.fifoPercent : Int) ≤ 100 := by exact_mod_cast config.fifoPercent_le
  have product := Int.mul_nonneg nonneg (Int.natCast_nonneg config.fifoPercent)
  have capped := Int.mul_le_mul_of_nonneg_left percent nonneg
  have share : shareOf qty config.fifoPercent 100 ≤ qty := by
    unfold shareOf
    omega
  have share_nonneg : 0 ≤ shareOf qty config.fifoPercent 100 := by
    unfold shareOf
    omega
  unfold fifoSlice
  split
  · exact ⟨floorLot_nonneg share_nonneg, floorLot_le.trans share⟩
  · exact ⟨le_rfl, nonneg⟩

theorem allocate_whole {qty : Int} (whole : allocatableQty items ≤ qty) :
    allocate config items qty = items.map fun item => { item with qty := item.size } := by
  unfold allocate
  exact if_pos whole

theorem takeInQueue_reallocates (items : List Allocation) (left : Int) :
    Reallocates (takeInQueue items left).1 items := by
  induction items generalizing left with
  | nil => exact .nil
  | cons head rest ih => exact .cons ⟨rfl, rfl, rfl⟩ (ih _)

theorem allocate_reallocates (config : ProRataConfig) (items : List Allocation) (qty : Int) :
    Reallocates (allocate config items qty) items := by
  by_cases whole : allocatableQty items ≤ qty
  · rw [allocate_whole whole]
    exact List.forall₂_map_left_iff.mpr (List.forall₂_same.mpr fun _ _ => ⟨rfl, rfl, rfl⟩)
  · rw [allocate_passes config (not_le.mp whole)]
    exact ((takeInQueue_reallocates ..).trans (shareOut_reallocates ..)).trans (takeInQueue_reallocates ..)

/-- `allocate` hands out as much as the level can take, and no order more than it has. -/
theorem allocate_spec (config : ProRataConfig) {qty : Int}
    (blank : ∀ item ∈ items, item.qty = 0 ∧ 0 ≤ item.size) (positive : 0 < qty) :
    Reallocates (allocate config items qty) items ∧
      (∀ item ∈ allocate config items qty, item.Within) ∧
      allocatedQty (allocate config items qty) = min qty (allocatableQty items) := by
  refine ⟨allocate_reallocates config items qty, ?_⟩
  by_cases whole : allocatableQty items ≤ qty
  · rw [allocate_whole whole]
    refine ⟨?_, ?_⟩
    · intro item member
      obtain ⟨old, inside, rfl⟩ := List.mem_map.mp member
      exact ⟨(blank old inside).2, le_rfl⟩
    · rw [min_eq_right whole, allocatedQty, List.map_map]
      rfl
  · have blankWithin : ∀ item ∈ items, item.Within := by
      intro item member
      obtain ⟨zero, sized⟩ := blank item member
      exact ⟨by omega, by omega⟩
    have nothing : allocatedQty items = 0 := by
      unfold allocatedQty
      apply List.sum_eq_zero
      intro given member
      obtain ⟨item, inside, rfl⟩ := List.mem_map.mp member
      exact (blank item inside).1
    obtain ⟨sliceNonneg, sliceLe⟩ := fifoSlice_bounds config positive.le
    obtain ⟨sliced, sliceWithin, sliceQty⟩ := allocatedQty_takeInQueue blankWithin sliceNonneg (by omega)
    obtain ⟨sharedWithin, sharedSize, sharedQty, sharesLe⟩ := shareOut_spec config sliceWithin sliced.size
      (show _ = qty - (qty - fifoSlice config qty) by omega) (by omega) (by omega)
    obtain ⟨-, restWithin, restQty⟩ := allocatedQty_takeInQueue sharedWithin (Int.sub_nonneg.mpr sharesLe)
      (by omega)
    rw [allocate_passes config (by omega), min_eq_left (by omega)]
    dsimp only
    exact ⟨restWithin, by omega⟩

end ProRata

end SlickSim
