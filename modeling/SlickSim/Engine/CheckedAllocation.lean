import SlickSim.Lib.MachineInt
import SlickSim.Engine.Allocation
import SlickSim.OrderBook.Reference

/-!
# Pro-rata allocation in machine arithmetic

`allocate` as it runs on 64-bit quantities: every sum, difference and call of
`mul_div_floor` is checked, `left` may not become negative, and the final assertion
is a check like the others. On any level a 64-bit total can describe, no check fails.
-/

set_option autoImplicit false

namespace SlickSim.ProRata

open MachineInt

structure Share where
  room : Int
  proRata : Int
  base : Int
  qty : Int
deriving DecidableEq, Repr

structure CheckedAllocation where
  shares : List Share
  items : List Allocation
deriving DecidableEq, Repr

/-- `share_of`: a call of `mul_div_floor` between casts. -/
def checkedShareOf (a b c : Int) : Option Int := do
  let share ← mulDivFloor (← uint64 a) (← uint64 b) (← uint64 c)
  int64 share

/-- `floorLot`. The lot size is the divisor of a remainder. -/
def checkedFloorLot (config : ProRataConfig) (qty : Int) : Option Int :=
  if config.lotSize = 0 then none else int64 (qty - qty % config.lotSize)

def checkedLeft (left given : Int) : Option Int :=
  if left - given < 0 then none else int64 (left - given)

def checkedTotal : List Allocation → Int → Option Int
  | [], total => some total
  | item :: rest, total => do checkedTotal rest (← int64 (total + item.size))

def checkedTakeInQueue : List Allocation → Int → Option (List Allocation × Int)
  | [], left => some ([], left)
  | head :: rest, left =>
      if left = 0 then some (head :: rest, 0)
      else do
        let extra := min left (← int64 (head.size - head.qty))
        let qty ← int64 (head.qty + extra)
        let (allocated, left) ← checkedTakeInQueue rest (← checkedLeft left extra)
        return ({ head with qty } :: allocated, left)

def checkedShares (config : ProRataConfig) (proRata base : Int) :
    List Allocation → Int → Option (List Share × List Allocation × Int)
  | [], left => some ([], [], left)
  | item :: rest, left => do
      let room ← int64 (item.size - item.qty)
      let floored ← checkedFloorLot config (← checkedShareOf proRata room base)
      let share := if floored < config.minAllocation then 0 else floored
      let qty ← int64 (item.qty + share)
      let (shares, allocated, left) ← checkedShares config proRata base rest (← checkedLeft left share)
      return ({ room, proRata, base, qty := share } :: shares, { item with qty } :: allocated, left)

def checkedSlice (config : ProRataConfig) (qty : Int) : Option Int :=
  if 0 < config.fifoPercent then
    (checkedShareOf qty config.fifoPercent 100).bind (checkedFloorLot config)
  else some 0

def checkedProRata (config : ProRataConfig) (total qty left : Int) (items : List Allocation) :
    Option (List Share × List Allocation × Int) :=
  if 0 < left then do
    let base ← int64 (total - (← int64 (qty - left)))
    checkedShares config left base items left
  else some ([], items, left)

def checkedSplit (config : ProRataConfig) (items : List Allocation) (total qty : Int) :
    Option CheckedAllocation := do
  let fifo ← checkedSlice config qty
  let left ← checkedLeft qty fifo
  let (sliced, _) ← checkedTakeInQueue items fifo
  let (shares, shared, left) ← checkedProRata config total qty left sliced
  let (items, left) ← checkedTakeInQueue shared left
  -- The final assertion.
  if left = 0 then some { shares, items } else none

/-- `allocate` with every step checked. -/
def checkedAllocate (config : ProRataConfig) (items : List Allocation) (qty : Int) :
    Option CheckedAllocation := do
  let total ← checkedTotal items 0
  if qty ≥ total then
    some { shares := [], items := items.map fun item => { item with qty := item.size } }
  else checkedSplit config items total qty

/-! ## No check fails -/

section Checks

variable {config : ProRataConfig} {items : List Allocation}

theorem shareOf_bounds {a b c : Int} (nonneg : 0 ≤ a) (room : 0 ≤ b) (positive : 0 < c) (within : b ≤ c) :
    0 ≤ shareOf a b c ∧ shareOf a b c ≤ a :=
  ⟨Int.ediv_nonneg (Int.mul_nonneg nonneg room) positive.le,
    Int.ediv_le_of_le_mul positive (Int.mul_le_mul_of_nonneg_left within nonneg)⟩

theorem natCast_share {a b c : Int} (nonneg : 0 ≤ a) (room : 0 ≤ b) (positive : 0 < c) :
    ((a.toNat * b.toNat / c.toNat : Nat) : Int) = shareOf a b c := by
  push_cast
  rw [Int.toNat_of_nonneg nonneg, Int.toNat_of_nonneg room, Int.toNat_of_nonneg positive.le]
  rfl

theorem checkedShareOf_bind (a b c : Int) :
    checkedShareOf a b c = (uint64 a).bind fun a => (uint64 b).bind fun b => (uint64 c).bind fun c =>
      (mulDivFloor a b c).bind fun share => int64 share :=
  rfl

theorem checkedShareOf_eq {a b c : Int} (nonneg : 0 ≤ a) (room : 0 ≤ b) (positive : 0 < c) (within : b ≤ c)
    (aFits : a < 2 ^ 63) (cFits : c < 2 ^ 63) : checkedShareOf a b c = some (shareOf a b c) := by
  obtain ⟨low, high⟩ := shareOf_bounds nonneg room positive within
  have call : mulDivFloor a.toNat b.toNat c.toNat = some (a.toNat * b.toNat / c.toNat) :=
    mulDivFloor_eq (by omega) (by omega) (by omega) (by omega)
  rw [checkedShareOf_bind, uint64_eq nonneg aFits, uint64_eq room (by omega), uint64_eq positive.le cFits,
    Option.bind_some, Option.bind_some, Option.bind_some, call, Option.bind_some,
    natCast_share nonneg room positive]
  exact int64_eq (by omega) (by omega)

theorem checkedFloorLot_eq {qty : Int} (nonneg : 0 ≤ qty) (fits : qty < 2 ^ 63) :
    checkedFloorLot config qty = some (floorLot config qty) := by
  have low := @floorLot_nonneg config qty nonneg
  have high := @floorLot_le config qty
  unfold checkedFloorLot
  rw [if_neg config.lotSize_positive.ne']
  unfold floorLot at low high ⊢
  exact int64_eq (by omega) (by omega)

theorem checkedLeft_eq {left given : Int} (enough : given ≤ left) (fits : left - given < 2 ^ 63) :
    checkedLeft left given = some (left - given) := by
  unfold checkedLeft
  rw [if_neg (by omega)]
  exact int64_eq (by omega) fits

theorem checkedTotal_eq (sized : ∀ item ∈ items, 0 ≤ item.size) {total : Int} (nonneg : 0 ≤ total)
    (fits : total + allocatableQty items < 2 ^ 63) :
    checkedTotal items total = some (total + allocatableQty items) := by
  induction items generalizing total with
  | nil =>
      unfold checkedTotal allocatableQty
      rw [List.map_nil, List.sum_nil, Int.add_zero]
  | cons head rest ih =>
      have headSized := sized head List.mem_cons_self
      have restSized : ∀ item ∈ rest, 0 ≤ item.size := fun item member => sized item (List.mem_cons_of_mem _ member)
      have later : 0 ≤ allocatableQty rest := by
        refine List.sum_nonneg fun size member => ?_
        obtain ⟨item, inside, rfl⟩ := List.mem_map.mp member
        exact restSized item inside
      rw [allocatableQty_cons] at fits ⊢
      unfold checkedTotal
      rw [int64_eq (by omega) (by omega)]
      show checkedTotal rest (total + head.size) = _
      rw [ih restSized (by omega) (by omega), Int.add_assoc]

theorem takeInQueue_zero (within : ∀ item ∈ items, item.Within) : takeInQueue items 0 = (items, 0) := by
  induction items with
  | nil => rfl
  | cons head rest ih =>
      obtain ⟨nonneg, fits⟩ := within head List.mem_cons_self
      unfold takeInQueue
      rw [min_eq_left (by omega)]
      dsimp only
      rw [Int.sub_zero, ih fun item member => within item (List.mem_cons_of_mem _ member), Int.add_zero]

theorem checkedTakeInQueue_eq (within : ∀ item ∈ items, item.Within)
    (fits : ∀ item ∈ items, item.size < 2 ^ 63) {left : Int} (nonneg : 0 ≤ left) (leftFits : left < 2 ^ 63) :
    checkedTakeInQueue items left = some (takeInQueue items left) := by
  induction items generalizing left with
  | nil => rfl
  | cons head rest ih =>
      have restWithin : ∀ item ∈ rest, item.Within := fun item member => within item (List.mem_cons_of_mem _ member)
      obtain ⟨headNonneg, headFits⟩ := within head List.mem_cons_self
      have bounded := fits head List.mem_cons_self
      unfold checkedTakeInQueue
      split <;> rename_i some_left
      · rw [some_left, takeInQueue_zero within]
      · rw [int64_eq (by omega) (by omega)]
        show (int64 (head.qty + min left (head.size - head.qty))).bind _ = _
        rw [int64_eq (by omega) (by omega)]
        show (checkedLeft left (min left (head.size - head.qty))).bind _ = _
        rw [checkedLeft_eq (by omega) (by omega)]
        show (checkedTakeInQueue rest (left - min left (head.size - head.qty))).bind _ = _
        rw [ih restWithin (fun item member => fits item (List.mem_cons_of_mem _ member)) (by omega) (by omega)]
        rfl

theorem checkedShares_eq {proRata base : Int} (within : ∀ item ∈ items, item.Within)
    (fits : ∀ item ∈ items, item.size < 2 ^ 63) (nonneg : 0 ≤ proRata) (positive : 0 < base)
    (enough : proRata ≤ base) (baseFits : base < 2 ^ 63)
    (inside : ∀ item ∈ items, item.size - item.qty ≤ base) {left : Int}
    (covers : (items.map (shareFor config proRata base)).sum ≤ left) (leftFits : left < 2 ^ 63) :
    checkedShares config proRata base items left =
      some (items.map fun item =>
          { room := item.size - item.qty, proRata, base, qty := shareFor config proRata base item },
        items.map fun item => { item with qty := item.qty + shareFor config proRata base item },
        left - (items.map (shareFor config proRata base)).sum) := by
  induction items generalizing left with
  | nil =>
      unfold checkedShares
      rw [List.map_nil, List.map_nil, List.map_nil, List.sum_nil, Int.sub_zero]
  | cons head rest ih =>
      have restWithin : ∀ item ∈ rest, item.Within := fun item member => within item (List.mem_cons_of_mem _ member)
      obtain ⟨headNonneg, headFits⟩ := within head List.mem_cons_self
      have bounded := fits head List.mem_cons_self
      have room := inside head List.mem_cons_self
      obtain ⟨shareNonneg, shareFits, -⟩ :=
        shareFor_bounds config (within head List.mem_cons_self) nonneg positive enough
      have later : 0 ≤ (rest.map (shareFor config proRata base)).sum := by
        refine List.sum_nonneg fun share member => ?_
        obtain ⟨item, isItem, rfl⟩ := List.mem_map.mp member
        exact (shareFor_bounds config (restWithin item isItem) nonneg positive enough).1
      rw [List.map_cons, List.sum_cons] at covers
      obtain ⟨exact_nonneg, exact_fits⟩ :=
        shareOf_bounds nonneg (show 0 ≤ head.size - head.qty by omega) positive room
      unfold checkedShares
      rw [int64_eq (by omega) (by omega)]
      show (checkedShareOf proRata (head.size - head.qty) base).bind _ = _
      rw [checkedShareOf_eq nonneg (by omega) positive room (by omega) baseFits]
      show (checkedFloorLot config (shareOf proRata (head.size - head.qty) base)).bind _ = _
      rw [checkedFloorLot_eq exact_nonneg (by omega)]
      show (int64 (head.qty + shareFor config proRata base head)).bind _ = _
      rw [int64_eq (by omega) (by omega)]
      show (checkedLeft left (shareFor config proRata base head)).bind _ = _
      rw [checkedLeft_eq (by omega) (by omega)]
      show (checkedShares config proRata base rest (left - shareFor config proRata base head)).bind _ = _
      rw [ih restWithin (fun item member => fits item (List.mem_cons_of_mem _ member))
        (fun item member => inside item (List.mem_cons_of_mem _ member)) (by omega) (by omega)]
      rw [List.map_cons, List.map_cons, List.map_cons, List.sum_cons, ← Int.sub_sub]
      rfl

/-- What is promised of a share: whole lots, the minimum or nothing, and no more than the
exact proportional share. -/
structure Share.Sound (config : ProRataConfig) (share : Share) : Prop where
  lots : config.lotSize ∣ share.qty
  minimum : share.qty = 0 ∨ config.minAllocation ≤ share.qty
  nonneg : 0 ≤ share.qty
  proportional : share.qty * share.base ≤ share.proRata * share.room

theorem shareFor_sound (config : ProRataConfig) {proRata base : Int} {item : Allocation} (within : item.Within)
    (nonneg : 0 ≤ proRata) (positive : 0 < base) (enough : proRata ≤ base) :
    Share.Sound config
      { room := item.size - item.qty, proRata, base, qty := shareFor config proRata base item } := by
  obtain ⟨shareNonneg, -, proportional⟩ := shareFor_bounds config within nonneg positive enough
  refine ⟨?_, ?_, shareNonneg, by rw [Int.mul_comm]; exact proportional⟩
  · dsimp only
    unfold shareFor floorLot
    dsimp only
    split
    · exact Int.dvd_zero _
    · exact Int.dvd_self_sub_emod
  · dsimp only
    unfold shareFor
    dsimp only
    split
    · exact .inl rfl
    · exact .inr (by omega)

theorem checkedSlice_eq (config : ProRataConfig) {qty : Int} (nonneg : 0 ≤ qty) (fits : qty < 2 ^ 63) :
    checkedSlice config qty = some (fifoSlice config qty) ∧ 0 ≤ fifoSlice config qty ∧
      fifoSlice config qty ≤ qty := by
  have percent : (config.fifoPercent : Int) ≤ 100 := by exact_mod_cast config.fifoPercent_le
  obtain ⟨low, high⟩ := shareOf_bounds nonneg (Int.natCast_nonneg config.fifoPercent)
    (show (0 : Int) < 100 by decide) percent
  unfold checkedSlice fifoSlice
  split
  · rw [checkedShareOf_eq nonneg (Int.natCast_nonneg _) (by decide) percent fits (by decide), Option.bind_some,
      checkedFloorLot_eq low (by omega)]
    exact ⟨rfl, floorLot_nonneg low, floorLot_le.trans high⟩
  · exact ⟨rfl, le_rfl, nonneg⟩

theorem takeInQueue_rest {left : Int} (within : ∀ item ∈ items, item.Within) (nonneg : 0 ≤ left)
    (room : allocatedQty items + left < allocatableQty items) : (takeInQueue items left).2 = 0 := by
  obtain ⟨-, -, restNonneg, -, balance, exhausted⟩ := takeInQueue_spec within nonneg
  omega

theorem room_le (within : ∀ item ∈ items, item.Within) {item : Allocation} (member : item ∈ items) :
    item.size - item.qty ≤ allocatableQty items - allocatedQty items := by
  induction items with
  | nil => cases member
  | cons head rest ih =>
      have restWithin : ∀ item ∈ rest, item.Within := fun item member => within item (List.mem_cons_of_mem _ member)
      have later : allocatedQty rest ≤ allocatableQty rest := by
        unfold allocatedQty allocatableQty
        exact List.sum_le_sum fun item member => (restWithin item member).2
      obtain ⟨-, fits⟩ := within head List.mem_cons_self
      rw [allocatableQty_cons, allocatedQty_cons]
      rcases List.mem_cons.mp member with rfl | member
      · omega
      · have := ih restWithin member
        omega

theorem size_le (sized : ∀ item ∈ items, 0 ≤ item.size) {item : Allocation} (member : item ∈ items) :
    item.size ≤ allocatableQty items :=
  List.single_le_sum (fun size isSize => by
    obtain ⟨other, inside, rfl⟩ := List.mem_map.mp isSize
    exact sized other inside) _ (List.mem_map_of_mem member)

theorem checkedProRata_eq (config : ProRataConfig) {total qty left : Int} (within : ∀ item ∈ items, item.Within)
    (fits : ∀ item ∈ items, item.size < 2 ^ 63) (size : allocatableQty items = total)
    (taken : allocatedQty items = qty - left) (nonneg : 0 ≤ left) (leftLe : left ≤ qty) (partly : qty < total)
    (totalFits : total < 2 ^ 63) :
    ∃ shares, checkedProRata config total qty left items = some (shares, shareOut config total qty left items,
        left - (sharesOf config total qty left items).sum) ∧
      (shares = [] ∨ shares.length = items.length) ∧ ∀ share ∈ shares, share.Sound config := by
  unfold checkedProRata shareOut sharesOf
  by_cases more : 0 < left
  · rw [if_pos more, if_pos more, if_pos more, int64_eq (by omega) (by omega)]
    simp only [Option.bind_eq_bind, Option.bind_some]
    rw [int64_eq (by omega) (by omega), Option.bind_some]
    have summed := sum_shareFor_le_proRata config within nonneg (show 0 < total - (qty - left) by omega)
      (by omega) (by omega)
    rw [checkedShares_eq within fits nonneg (by omega) (by omega) (by omega) (fun item member => by
      have := room_le within member
      omega) summed (by omega)]
    refine ⟨_, rfl, .inr (List.length_map ..), ?_⟩
    intro share member
    obtain ⟨item, inside, rfl⟩ := List.mem_map.mp member
    exact shareFor_sound config (within item inside) nonneg (by omega) (by omega)
  · rw [if_neg more, if_neg more, if_neg more, List.sum_map_zero, Int.sub_zero]
    exact ⟨[], rfl, .inl rfl, by rintro _ ⟨⟩⟩

/-- On a level that is not taken whole no check fails, the result is `allocate`'s, and the
shares are sound. -/
theorem checkedSplit_eq (config : ProRataConfig) {qty : Int}
    (blank : ∀ item ∈ items, item.qty = 0 ∧ 0 ≤ item.size) (positive : 0 < qty)
    (partly : qty < allocatableQty items) (fits : allocatableQty items < 2 ^ 63) :
    ∃ shares, checkedSplit config items (allocatableQty items) qty =
        some { shares, items := allocate config items qty } ∧
      (shares = [] ∨ shares.length = items.length) ∧ ∀ share ∈ shares, share.Sound config := by
  have blankWithin : ∀ item ∈ items, item.Within := by
    intro item member
    obtain ⟨zero, sized⟩ := blank item member
    exact ⟨by omega, by omega⟩
  have nothing : allocatedQty items = 0 := by
    unfold allocatedQty
    refine List.sum_eq_zero fun given member => ?_
    obtain ⟨item, inside, rfl⟩ := List.mem_map.mp member
    exact (blank item inside).1
  have sizeFits : ∀ others : List Allocation, (∀ item ∈ others, item.Within) →
      allocatableQty others = allocatableQty items → ∀ item ∈ others, item.size < 2 ^ 63 := by
    intro others within size item member
    have := size_le (fun item member => (within item member).1.trans (within item member).2) member
    omega
  obtain ⟨slice, fifoNonneg, fifoLe⟩ := checkedSlice_eq config positive.le (show qty < 2 ^ 63 by omega)
  rw [allocate_passes config partly]
  unfold checkedSplit
  rw [slice]
  simp only [Option.bind_eq_bind, Option.bind_some]
  rw [checkedLeft_eq fifoLe (by omega), Option.bind_some,
    checkedTakeInQueue_eq blankWithin (sizeFits _ blankWithin rfl) fifoNonneg (by omega), Option.bind_some]
  generalize fifoSlice config qty = fifo at fifoNonneg fifoLe ⊢
  obtain ⟨sliced, slicedWithin, slicedQty⟩ := allocatedQty_takeInQueue blankWithin fifoNonneg (by omega)
  have slicedSize := sliced.size
  have slicedLength := sliced.length_eq
  generalize (takeInQueue items fifo).1 = slicedItems at sliced slicedWithin slicedQty slicedSize slicedLength ⊢
  obtain ⟨shares, proRata, counted, sound⟩ := checkedProRata_eq config slicedWithin
    (sizeFits _ slicedWithin slicedSize) slicedSize (show _ = qty - (qty - fifo) by omega) (by omega) (by omega)
    partly fits
  obtain ⟨sharedWithin, sharedSize, sharedQty, givenLe⟩ := shareOut_spec config slicedWithin slicedSize
    (show _ = qty - (qty - fifo) by omega) (by omega) partly
  rw [proRata, Option.bind_some]
  generalize (sharesOf config (allocatableQty items) qty (qty - fifo) slicedItems).sum = given
    at sharedQty givenLe ⊢
  generalize shareOut config (allocatableQty items) qty (qty - fifo) slicedItems = shared
    at sharedWithin sharedSize sharedQty ⊢
  have sharesNonneg : qty - fifo - given < 2 ^ 63 := by
    have : 0 ≤ allocatedQty shared := List.sum_nonneg fun given member => by
      obtain ⟨item, inside, rfl⟩ := List.mem_map.mp member
      exact (sharedWithin item inside).1
    omega
  rw [checkedTakeInQueue_eq sharedWithin (sizeFits _ sharedWithin sharedSize) (by omega) sharesNonneg,
    Option.bind_some, takeInQueue_rest sharedWithin (by omega) (by omega), if_pos rfl]
  exact ⟨shares, rfl, slicedLength ▸ counted, sound⟩

end Checks

variable {β : Type}

/-- On every level of resting orders whose total fits its type, for every quantity, lot size,
minimum and slice: no sum or difference overflows, every call of `mul_div_floor` meets its
precondition, `left` stays non-negative and ends at 0. No order gets more than it has, together
they get what the level can take, and the shares of the pro-rata pass are sound. -/
theorem checkedAllocate_exact (config : ProRataConfig) (book : OrderBook β) (level : PriceLevelL3) (resolve : Bool)
    {qty : Int} (resting : ∀ order ∈ level.orders, 0 < order.quantity) (fits : level.totalQuantity < 2 ^ 63)
    (positive : 0 < qty) :
    ∃ shares, checkedAllocate config (blankAllocations book level resolve) qty =
        some { shares, items := allocate config (blankAllocations book level resolve) qty } ∧
      Reallocates (allocate config (blankAllocations book level resolve) qty)
        (blankAllocations book level resolve) ∧
      (∀ item ∈ allocate config (blankAllocations book level resolve) qty, item.Within) ∧
      allocatedQty (allocate config (blankAllocations book level resolve) qty) = min qty level.totalQuantity ∧
      (qty < level.totalQuantity →
        (shares = [] ∨ shares.length = level.orders.length) ∧ ∀ share ∈ shares, share.Sound config) := by
  have blank : ∀ item ∈ blankAllocations book level resolve, item.qty = 0 ∧ 0 ≤ item.size := by
    intro item member
    obtain ⟨order, inside, rfl⟩ := List.mem_map.mp member
    exact ⟨rfl, (resting order inside).le⟩
  have size : allocatableQty (blankAllocations book level resolve) = level.totalQuantity := by
    unfold allocatableQty blankAllocations PriceLevelL3.totalQuantity
    rw [List.map_map]
    rfl
  have length : (blankAllocations book level resolve).length = level.orders.length := List.length_map ..
  obtain ⟨same, within, total⟩ := allocate_spec config blank positive
  rw [size] at total
  rw [← size] at fits
  have summed := @checkedTotal_eq (blankAllocations book level resolve) (fun item member => (blank item member).2) 0
    le_rfl (by omega)
  rw [Int.zero_add] at summed
  by_cases whole : qty ≥ allocatableQty (blankAllocations book level resolve)
  · refine ⟨[], ?_, same, within, total, fun partly => absurd partly (by omega)⟩
    unfold checkedAllocate
    rw [summed, Option.bind_eq_bind, Option.bind_some, if_pos whole, allocate_whole whole]
  · obtain ⟨shares, split, counted, sound⟩ := checkedSplit_eq config blank positive (by omega) fits
    refine ⟨shares, ?_, same, within, total, fun _ => ⟨length ▸ counted, sound⟩⟩
    unfold checkedAllocate
    rw [summed, Option.bind_eq_bind, Option.bind_some, if_neg whole]
    exact split

theorem checkedTotal_overflows {items : List Allocation} (sized : ∀ item ∈ items, 0 ≤ item.size) {total : Int}
    (fits : total < 2 ^ 63) (overflows : 2 ^ 63 ≤ total + allocatableQty items) : checkedTotal items total = none := by
  induction items generalizing total with
  | nil =>
      unfold allocatableQty at overflows
      rw [List.map_nil, List.sum_nil] at overflows
      omega
  | cons head rest ih =>
      rw [allocatableQty_cons] at overflows
      rw [checkedTotal]
      cases summed : int64 (total + head.size) with
      | none => rfl
      | some next =>
          unfold int64 at summed
          split at summed
          · rename_i within
            cases summed
            exact ih (fun item member => sized item (List.mem_cons_of_mem _ member)) within.2 (by omega)
          · cases summed

/-- A check fails exactly on a level that a total cannot describe. -/
theorem checkedAllocate_eq_none (config : ProRataConfig) (book : OrderBook β) (level : PriceLevelL3) (resolve : Bool)
    {qty : Int} (resting : ∀ order ∈ level.orders, 0 < order.quantity) (positive : 0 < qty) :
    checkedAllocate config (blankAllocations book level resolve) qty = none ↔ 2 ^ 63 ≤ level.totalQuantity := by
  constructor
  · intro unchecked
    by_contra fits
    obtain ⟨shares, exact, -⟩ := checkedAllocate_exact config book level resolve resting (not_le.mp fits) positive
    cases unchecked.symm.trans exact
  · intro overflows
    have sized : ∀ item ∈ blankAllocations book level resolve, 0 ≤ item.size := by
      intro item member
      obtain ⟨order, inside, rfl⟩ := List.mem_map.mp member
      exact (resting order inside).le
    have size : allocatableQty (blankAllocations book level resolve) = level.totalQuantity := by
      unfold allocatableQty blankAllocations PriceLevelL3.totalQuantity
      rw [List.map_map]
      rfl
    have summed := checkedTotal_overflows sized (show (0 : Int) < 2 ^ 63 by decide) (by omega)
    unfold checkedAllocate
    rw [summed]
    rfl

/-- An allocation that passes its checks is the engine's. -/
theorem checkedAllocate_eq_some (config : ProRataConfig) (book : OrderBook β) (level : PriceLevelL3) (resolve : Bool)
    {qty : Int} {allocated : CheckedAllocation} (resting : ∀ order ∈ level.orders, 0 < order.quantity)
    (positive : 0 < qty)
    (checked : checkedAllocate config (blankAllocations book level resolve) qty = some allocated) :
    level.totalQuantity < 2 ^ 63 ∧ allocated.items = allocate config (blankAllocations book level resolve) qty := by
  have fits : level.totalQuantity < 2 ^ 63 := by
    by_contra overflows
    rw [(checkedAllocate_eq_none config book level resolve resting positive).mpr (not_lt.mp overflows)] at checked
    cases checked
  obtain ⟨shares, exact, -⟩ := checkedAllocate_exact config book level resolve resting fits positive
  cases checked.symm.trans exact
  exact ⟨fits, rfl⟩

/-- A level of 1e9 and 3e9 lots of 1e8 units, and an aggressor of 2e9. -/
theorem checkedAllocate_exact_large :
    let config : ProRataConfig := { lotSize := 100000000, minAllocation := 0, fifoPercent := 10
                                    lotSize_positive := by decide, minAllocation_nonneg := by decide
                                    fifoPercent_le := by decide }
    let level : PriceLevelL3 := { price := 100, orders :=
      [{ orderId := 1, side := .sell, price := 100, quantity := 100000000000000000, priority := 1 },
        { orderId := 2, side := .sell, price := 100, quantity := 300000000000000000, priority := 2 }] }
    let blank := blankAllocations (OrderBook.new (fun _ => default) : OrderBook ReferenceBook) level false
    let qty : Int := 200000000000000000
    ∃ shares, checkedAllocate config blank qty = some { shares, items := allocate config blank qty } ∧
      Reallocates (allocate config blank qty) blank ∧
      (∀ item ∈ allocate config blank qty, item.Within) ∧
      allocatedQty (allocate config blank qty) = min qty level.totalQuantity ∧
      (qty < level.totalQuantity →
        (shares = [] ∨ shares.length = level.orders.length) ∧ ∀ share ∈ shares, share.Sound config) :=
  checkedAllocate_exact _ _ _ _ (by decide) (by decide) (by decide)

end SlickSim.ProRata
