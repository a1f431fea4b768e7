import SlickSim.Ledger.Machine

/-!
# The representation invariant

`Indexed` is about identity: the maps, the pool and the L3 ids name the same
orders. `Agrees` is about data: what rests is what the pooled order says. Both
hold between any two effects of the ledger machine, with the exemptions the
order in hand needs.
-/

set_option autoImplicit false

namespace SlickSim

open OrderBookL3 (afterExecution)

/-- The fields the lookup maps are keyed by. -/
structure Order.SameIdentity (left right : Order) : Prop where
  id : left.id = right.id
  clientOrderId : left.clientOrderId = right.clientOrderId
  orderId : left.orderId = right.orderId

namespace Ledger

structure Indexed (hand : Hand) (ledger : Ledger) : Prop where
  owner_id : ∀ {id ref}, ledger.owner id = some ref → (ledger.heap ref).id = id
  byClient_iff : ∀ {name ref}, ledger.byClient name = some ref ↔
    name.isEmpty = false ∧ ledger.Registered ref ∧ (ledger.heap ref).clientOrderId = name
  byOrder_iff : ∀ {name ref}, ledger.byOrder name = some ref ↔
    name.isEmpty = false ∧ ledger.Registered ref ∧ (ledger.heap ref).orderId = name
  registered_owned : ∀ {ref}, ledger.Registered ref → ledger.Owned (ledger.heap ref).id
  entry_id : ∀ {id resting}, ledger.entry id = some resting → resting.orderId = id
  entry_owned : ∀ {id resting}, ledger.entry id = some resting → ledger.Owned id →
    ∃ ref, ledger.owner id = some ref
  entry_bound : ∀ {id resting}, ledger.entry id = some resting → id < ledger.globals.nextOrderId
  owned_bound : ∀ {id}, ledger.Owned id → id < ledger.globals.nextOrderId
  numbered : 0 < ledger.globals.nextOrderId
  live_iff : ∀ {ref}, ref ∈ ledger.live ↔ ledger.Registered ref ∨ hand.fresh = some ref
  live_nodup : ledger.live.Nodup
  freedOnce : ledger.doubleFreed = false
  resting_registered : ∀ {ref}, hand.resting = some ref → ledger.Registered ref
  fresh_unregistered : ∀ {ref}, hand.fresh = some ref → ledger.owner (ledger.heap ref).id = none
  fresh_absent : ∀ {ref}, hand.fresh = some ref → ledger.entry (ledger.heap ref).id = none
  fresh_owned : ∀ {ref}, hand.fresh = some ref → ledger.Owned (ledger.heap ref).id
  fresh_client : ∀ {ref}, hand.fresh = some ref →
    (ledger.heap ref).clientOrderId.isEmpty = false →
    ledger.byClient (ledger.heap ref).clientOrderId = none
  fresh_order : ∀ {ref}, hand.fresh = some ref →
    (ledger.heap ref).orderId.isEmpty = false ∧ ledger.byOrder (ledger.heap ref).orderId = none

/-- What one pooled order and the book say of each other. -/
structure AgreesAt (hand : Hand) (ledger : Ledger) (ref : Nat) : Prop where
  rests : ledger.Registered ref → hand.lagging ≠ some ref →
    ledger.entry (ledger.heap ref).id = some (ledger.entryOf ref) ∧
      0 < (ledger.heap ref).leavesQuantity ∧
      (ledger.heap ref).quantity = (ledger.heap ref).leavesQuantity + (ledger.heap ref).cumQuantity
  lags : hand.lagging = some ref →
    (∃ resting, ledger.entry (ledger.heap ref).id = some resting ∧
      resting.side = toBookSide (ledger.heap ref).side) ∧
    0 ≤ (ledger.heap ref).leavesQuantity ∧
    (0 < (ledger.heap ref).leavesQuantity →
      (ledger.heap ref).quantity = (ledger.heap ref).leavesQuantity + (ledger.heap ref).cumQuantity)
  filled_nonneg : ledger.Registered ref ∨ hand.fresh = some ref →
    0 ≤ (ledger.heap ref).cumQuantity
  durable : ledger.Registered ref → (ledger.heap ref).timeInForce.rests = true
  ranked : ledger.Registered ref →
    0 < (ledger.heap ref).priority ∧ (ledger.heap ref).priority ≤ ledger.globals.nextPriority
  whole : hand.fresh = some ref →
    (ledger.heap ref).quantity = (ledger.heap ref).leavesQuantity + (ledger.heap ref).cumQuantity

structure Agrees (hand : Hand) (ledger : Ledger) : Prop where
  at_ : ∀ ref, ledger.AgreesAt hand ref
  positive : ∀ {id resting}, ledger.entry id = some resting → 0 < resting.quantity

/-- The book is represented by its maps and its pool. -/
structure Represents (hand : Hand) (ledger : Ledger) : Prop where
  indexed : ledger.Indexed hand
  agrees : ledger.Agrees hand

/-! ## What single operations leave alone -/

section Operations

variable {ledger : Ledger} {env : Environment} {ref : Nat}

@[simp] theorem updateOrder_heap_self (change : Order → Order) :
    (ledger.updateOrder ref change).heap ref = change (ledger.heap ref) :=
  Function.update_self ..

theorem updateOrder_heap_of_ne {other : Nat} (change : Order → Order) (different : other ≠ ref) :
    (ledger.updateOrder ref change).heap other = ledger.heap other :=
  Function.update_of_ne different ..

theorem updateOrder_identity (ledger : Ledger) {ref : Nat} {change : Order → Order}
    (kept : (change (ledger.heap ref)).SameIdentity (ledger.heap ref)) (other : Nat) :
    ((ledger.updateOrder ref change).heap other).SameIdentity (ledger.heap other) := by
  by_cases same : other = ref
  · subst same
    rw [updateOrder_heap_self]
    exact kept
  · rw [updateOrder_heap_of_ne change same]
    exact ⟨rfl, rfl, rfl⟩

@[simp] theorem placeEntry_entry_self {id timestamp : Nat} {next : Option BookOrder} :
    (ledger.placeEntry id next timestamp).entry id = next :=
  Function.update_self ..

theorem placeEntry_entry_of_ne {id other timestamp : Nat} {next : Option BookOrder}
    (different : other ≠ id) :
    (ledger.placeEntry id next timestamp).entry other = ledger.entry other :=
  Function.update_of_ne different ..

theorem owned_publish {write : OrderResponse → OrderResponse}
    (known : ∀ slot, (write slot).orderNum = 0 ∨ ledger.Owned (write slot).orderNum) (id : Nat) :
    (ledger.publish env write).Owned id ↔ ledger.Owned id := by
  constructor
  · rintro ⟨nonzero, response, member, same⟩
    rcases List.mem_append.mp member with old | new
    · exact ⟨nonzero, response, old, same⟩
    · rw [List.mem_singleton] at new
      subst new
      rcases known (env.slot ledger.responses.length) with zero | owned
      · exact absurd (same.symm.trans zero) nonzero
      · exact same ▸ owned
  · rintro ⟨nonzero, response, member, same⟩
    exact ⟨nonzero, response, List.mem_append_left _ member, same⟩

theorem registered_of_identity {before after : Ledger}
    (identity : ∀ other, (after.heap other).SameIdentity (before.heap other))
    (owner : after.owner = before.owner) : after.Registered ref ↔ before.Registered ref := by
  unfold Registered
  rw [owner, (identity ref).id]

end Operations

namespace Indexed

variable {hand : Hand} {ledger : Ledger}

theorem registered (inv : ledger.Indexed hand) {id ref : Nat} (ours : ledger.owner id = some ref) :
    ledger.Registered ref := by
  unfold Registered
  rw [inv.owner_id ours]
  exact ours

/-- Orders that share an id are the same object. -/
theorem ref_unique {left right : Nat} (leftIn : ledger.Registered left)
    (rightIn : ledger.Registered right) (same : (ledger.heap left).id = (ledger.heap right).id) :
    left = right := by
  unfold Registered at leftIn rightIn
  rw [same, rightIn] at leftIn
  exact (Option.some.inj leftIn).symm

theorem transport {hand' : Hand} {after : Ledger} (inv : ledger.Indexed hand)
    (identity : ∀ ref, (after.heap ref).SameIdentity (ledger.heap ref))
    (owner : after.owner = ledger.owner) (byClient : after.byClient = ledger.byClient)
    (byOrder : after.byOrder = ledger.byOrder) (live : after.live = ledger.live)
    (freed : after.doubleFreed = ledger.doubleFreed)
    (owned : ∀ id, after.Owned id ↔ ledger.Owned id)
    (entries : ∀ id resting, after.entry id = some resting →
      resting.orderId = id ∧ ∃ before, ledger.entry id = some before)
    (bound : ledger.globals.nextOrderId ≤ after.globals.nextOrderId)
    (fresh : hand'.fresh = hand.fresh)
    (resting : ∀ ref, hand'.resting = some ref → ledger.Registered ref) : after.Indexed hand' where
  owner_id := by
    intro id ref ours
    rw [owner] at ours
    rw [(identity ref).id]
    exact inv.owner_id ours
  byClient_iff := by
    intro name ref
    rw [byClient, inv.byClient_iff, registered_of_identity identity owner,
      (identity ref).clientOrderId]
  byOrder_iff := by
    intro name ref
    rw [byOrder, inv.byOrder_iff, registered_of_identity identity owner, (identity ref).orderId]
  registered_owned := by
    intro ref inside
    rw [(identity ref).id, owned]
    exact inv.registered_owned ((registered_of_identity identity owner).mp inside)
  entry_id := fun found => (entries _ _ found).1
  entry_owned := by
    intro id order found isOwned
    obtain ⟨before, foundBefore⟩ := (entries id order found).2
    rw [owner]
    exact inv.entry_owned foundBefore ((owned id).mp isOwned)
  entry_bound := by
    intro id order found
    obtain ⟨before, foundBefore⟩ := (entries id order found).2
    exact lt_of_lt_of_le (inv.entry_bound foundBefore) bound
  owned_bound := fun isOwned => lt_of_lt_of_le (inv.owned_bound ((owned _).mp isOwned)) bound
  numbered := lt_of_lt_of_le inv.numbered bound
  live_iff := by
    intro ref
    rw [live, inv.live_iff, registered_of_identity identity owner, fresh]
  live_nodup := live ▸ inv.live_nodup
  freedOnce := freed.trans inv.freedOnce
  resting_registered := fun held => (registered_of_identity identity owner).mpr (resting _ held)
  fresh_unregistered := by
    intro ref held
    rw [owner, (identity ref).id]
    exact inv.fresh_unregistered (fresh ▸ held)
  fresh_absent := by
    intro ref held
    rw [(identity ref).id]
    cases found : after.entry (ledger.heap ref).id with
    | none => rfl
    | some order =>
        obtain ⟨before, foundBefore⟩ := (entries _ _ found).2
        rw [inv.fresh_absent (fresh ▸ held)] at foundBefore
        cases foundBefore
  fresh_owned := by
    intro ref held
    rw [(identity ref).id, owned]
    exact inv.fresh_owned (fresh ▸ held)
  fresh_client := by
    intro ref held
    rw [(identity ref).clientOrderId, byClient]
    exact inv.fresh_client (fresh ▸ held)
  fresh_order := by
    intro ref held
    rw [(identity ref).orderId, byOrder]
    exact inv.fresh_order (fresh ▸ held)

theorem publish {hand' : Hand} {env : Environment} {write : OrderResponse → OrderResponse}
    (inv : ledger.Indexed hand)
    (known : ∀ slot, (write slot).orderNum = 0 ∨ ledger.Owned (write slot).orderNum)
    (fresh : hand'.fresh = hand.fresh)
    (resting : ∀ ref, hand'.resting = some ref → hand.resting = some ref) :
    (ledger.publish env write).Indexed hand' :=
  inv.transport (fun _ => ⟨rfl, rfl, rfl⟩) rfl rfl rfl rfl rfl (owned_publish known)
    (fun _ _ found => ⟨inv.entry_id found, _, found⟩) le_rfl fresh
    (fun _ held => inv.resting_registered (resting _ held))

theorem updateOrder {ref : Nat} {change : Order → Order} (inv : ledger.Indexed hand)
    (kept : (change (ledger.heap ref)).SameIdentity (ledger.heap ref)) :
    (ledger.updateOrder ref change).Indexed hand :=
  inv.transport (updateOrder_identity ledger kept) rfl rfl rfl rfl rfl (fun _ => Iff.rfl)
    (fun _ _ found => ⟨inv.entry_id found, _, found⟩) le_rfl rfl
    (fun _ held => inv.resting_registered held)

theorem placeEntry (inv : ledger.Indexed hand) (id : Nat) (next : Option BookOrder) (timestamp : Nat)
    (keyed : ∀ order, next = some order → order.orderId = id ∧ ∃ before, ledger.entry id = some before) :
    (ledger.placeEntry id next timestamp).Indexed hand := by
  refine inv.transport (fun _ => ⟨rfl, rfl, rfl⟩) rfl rfl rfl rfl rfl (fun _ => Iff.rfl) ?_ le_rfl rfl
    (fun _ held => inv.resting_registered held)
  intro other resting found
  by_cases same : other = id
  · subst same
    rw [placeEntry_entry_self] at found
    exact keyed resting found
  · rw [placeEntry_entry_of_ne same] at found
    exact ⟨inv.entry_id found, _, found⟩

theorem addEntry {order : BookOrder} (inv : ledger.Indexed hand) (timestamp : Nat)
    (foreign : ¬ ledger.Owned order.orderId)
    (numbered : order.orderId < ledger.globals.nextOrderId) :
    (ledger.placeEntry order.orderId (some order) timestamp).Indexed hand where
  owner_id := inv.owner_id
  byClient_iff := inv.byClient_iff
  byOrder_iff := inv.byOrder_iff
  registered_owned := inv.registered_owned
  entry_id := by
    intro id resting found
    by_cases same : id = order.orderId
    · subst same
      rw [placeEntry_entry_self] at found
      cases found
      rfl
    · rw [placeEntry_entry_of_ne same] at found
      exact inv.entry_id found
  entry_owned := by
    intro id resting found owned
    by_cases same : id = order.orderId
    · subst same
      exact absurd owned foreign
    · rw [placeEntry_entry_of_ne same] at found
      exact inv.entry_owned found owned
  entry_bound := by
    intro id resting found
    by_cases same : id = order.orderId
    · subst same
      exact numbered
    · rw [placeEntry_entry_of_ne same] at found
      exact inv.entry_bound found
  owned_bound := inv.owned_bound
  numbered := inv.numbered
  live_iff := inv.live_iff
  live_nodup := inv.live_nodup
  freedOnce := inv.freedOnce
  resting_registered := inv.resting_registered
  fresh_unregistered := inv.fresh_unregistered
  fresh_absent := by
    intro ref held
    have different : (ledger.heap ref).id ≠ order.orderId := by
      intro same
      exact foreign (same ▸ inv.fresh_owned held)
    exact (placeEntry_entry_of_ne different).trans (inv.fresh_absent held)
  fresh_owned := inv.fresh_owned
  fresh_client := inv.fresh_client
  fresh_order := inv.fresh_order

theorem freeFresh {ref : Nat} (inv : ledger.Indexed hand) (held : hand.fresh = some ref) :
    (ledger.freeOrder ref).Indexed .none := by
  have unregistered : ¬ ledger.Registered ref := by
    intro inside
    rw [Registered, inv.fresh_unregistered held] at inside
    cases inside
  have out : ref ∈ ledger.live := inv.live_iff.mpr (.inr held)
  exact {
    owner_id := inv.owner_id
    byClient_iff := inv.byClient_iff
    byOrder_iff := inv.byOrder_iff
    registered_owned := inv.registered_owned
    entry_id := inv.entry_id
    entry_owned := inv.entry_owned
    entry_bound := inv.entry_bound
    owned_bound := inv.owned_bound
    numbered := inv.numbered
    live_iff := by
      intro other
      show other ∈ ledger.live.erase ref ↔ _
      rw [inv.live_nodup.mem_erase_iff, inv.live_iff, held]
      constructor
      · rintro ⟨different, inside | same⟩
        · exact .inl inside
        · exact absurd (Option.some.inj same).symm different
      · rintro (inside | same)
        · refine ⟨?_, .inl inside⟩
          rintro rfl
          exact unregistered inside
        · cases same
    live_nodup := inv.live_nodup.erase _
    freedOnce := by
      show (ledger.doubleFreed || decide (ref ∉ ledger.live)) = false
      simp [inv.freedOnce, out]
    resting_registered := by rintro _ ⟨⟩
    fresh_unregistered := by rintro _ ⟨⟩
    fresh_absent := by rintro _ ⟨⟩
    fresh_owned := by rintro _ ⟨⟩
    fresh_client := by rintro _ ⟨⟩
    fresh_order := by rintro _ ⟨⟩ }

theorem unregisterOrder_registered {ref other : Nat} (inside : ledger.Registered ref) :
    (ledger.unregisterOrder ref).Registered other ↔ ledger.Registered other ∧ other ≠ ref := by
  show Function.update ledger.owner (ledger.heap ref).id none (ledger.heap other).id = some other ↔ _
  by_cases same : (ledger.heap other).id = (ledger.heap ref).id
  · rw [same, Function.update_self]
    constructor
    · rintro ⟨⟩
    · rintro ⟨otherIn, different⟩
      exact absurd (ref_unique otherIn inside same) different
  · rw [Function.update_of_ne same]
    constructor
    · intro otherIn
      refine ⟨otherIn, ?_⟩
      rintro rfl
      exact same rfl
    · exact And.left

/-- A name map without the name of one order. -/
private theorem erased_iff {names : Name → Option Nat} (field : Nat → Name) {ref other : Nat}
    {name : Name} {inside : Nat → Prop}
    (exact : ∀ {name other}, names name = some other ↔
      name.isEmpty = false ∧ inside other ∧ field other = name) (registered : inside ref) :
    (if (field ref).isEmpty then names else Function.update names (field ref) none) name =
        some other ↔ name.isEmpty = false ∧ (inside other ∧ other ≠ ref) ∧ field other = name := by
  by_cases blank : (field ref).isEmpty = true
  · rw [if_pos blank, exact]
    constructor
    · rintro ⟨nonempty, otherIn, same⟩
      refine ⟨nonempty, ⟨otherIn, ?_⟩, same⟩
      rintro rfl
      rw [same, nonempty] at blank
      cases blank
    · rintro ⟨nonempty, ⟨otherIn, _⟩, same⟩
      exact ⟨nonempty, otherIn, same⟩
  · rw [if_neg blank]
    by_cases taken : name = field ref
    · subst taken
      rw [Function.update_self]
      constructor
      · rintro ⟨⟩
      · rintro ⟨nonempty, ⟨otherIn, different⟩, same⟩
        have left := exact.mpr ⟨nonempty, otherIn, same⟩
        have right := exact.mpr ⟨nonempty, registered, rfl⟩
        rw [left] at right
        exact absurd (Option.some.inj right) different
    · rw [Function.update_of_ne taken, exact]
      constructor
      · rintro ⟨nonempty, otherIn, same⟩
        refine ⟨nonempty, ⟨otherIn, ?_⟩, same⟩
        rintro rfl
        exact taken same.symm
      · rintro ⟨nonempty, ⟨otherIn, _⟩, same⟩
        exact ⟨nonempty, otherIn, same⟩

private theorem erased_none {names : Name → Option Nat} {blank : Bool} {erased name : Name}
    (absent : names name = none) :
    (if blank then names else Function.update names erased none) name = none := by
  split
  · exact absent
  · by_cases same : name = erased
    · rw [same, Function.update_self]
    · rw [Function.update_of_ne same]
      exact absent

theorem discard {hand' : Hand} {ref : Nat} (inv : ledger.Indexed hand)
    (inside : ledger.Registered ref) (absent : ledger.entry (ledger.heap ref).id = none)
    (fresh : hand'.fresh = hand.fresh)
    (apart : ∀ other, hand'.resting = some other → hand.resting = some other ∧ other ≠ ref) :
    ((ledger.unregisterOrder ref).freeOrder ref).Indexed hand' := by
  have out : ref ∈ ledger.live := inv.live_iff.mpr (.inl inside)
  have registered : ∀ {other}, ((ledger.unregisterOrder ref).freeOrder ref).Registered other ↔
      ledger.Registered other ∧ other ≠ ref :=
    unregisterOrder_registered inside
  have unheld : hand.fresh ≠ some ref := by
    intro held
    rw [Registered, inv.fresh_unregistered held] at inside
    cases inside
  have ownerLeft : ∀ {id other}, ((ledger.unregisterOrder ref).freeOrder ref).owner id = some other →
      ledger.owner id = some other := by
    intro id other ours
    change Function.update ledger.owner (ledger.heap ref).id none id = some other at ours
    by_cases same : id = (ledger.heap ref).id
    · rw [same, Function.update_self] at ours
      cases ours
    · rwa [Function.update_of_ne same] at ours
  exact {
    owner_id := fun ours => inv.owner_id (ownerLeft ours)
    byClient_iff := by
      intro name other
      rw [registered]
      exact erased_iff (fun ref => (ledger.heap ref).clientOrderId) inv.byClient_iff inside
    byOrder_iff := by
      intro name other
      rw [registered]
      exact erased_iff (fun ref => (ledger.heap ref).orderId) inv.byOrder_iff inside
    registered_owned := fun otherIn => inv.registered_owned (registered.mp otherIn).1
    entry_id := inv.entry_id
    entry_owned := by
      intro id resting found owned
      obtain ⟨other, ours⟩ := inv.entry_owned found owned
      refine ⟨other, ?_⟩
      show Function.update ledger.owner (ledger.heap ref).id none id = some other
      rw [Function.update_of_ne, ours]
      rintro rfl
      have found : ledger.entry (ledger.heap ref).id = some resting := found
      rw [absent] at found
      cases found
    entry_bound := inv.entry_bound
    owned_bound := inv.owned_bound
    numbered := inv.numbered
    live_iff := by
      intro other
      show other ∈ ledger.live.erase ref ↔ _
      rw [inv.live_nodup.mem_erase_iff, inv.live_iff, registered, fresh]
      constructor
      · rintro ⟨different, otherIn | held⟩
        · exact .inl ⟨otherIn, different⟩
        · exact .inr held
      · rintro (⟨otherIn, different⟩ | held)
        · exact ⟨different, .inl otherIn⟩
        · refine ⟨?_, .inr held⟩
          rintro rfl
          exact unheld held
    live_nodup := inv.live_nodup.erase _
    freedOnce := by
      show (ledger.doubleFreed || decide (ref ∉ ledger.live)) = false
      simp [inv.freedOnce, out]
    resting_registered := by
      intro other held
      obtain ⟨heldBefore, different⟩ := apart other held
      exact registered.mpr ⟨inv.resting_registered heldBefore, different⟩
    fresh_unregistered := by
      intro other held
      have before := inv.fresh_unregistered (fresh ▸ held)
      show Function.update ledger.owner (ledger.heap ref).id none (ledger.heap other).id = none
      by_cases same : (ledger.heap other).id = (ledger.heap ref).id
      · rw [same, Function.update_self]
      · rw [Function.update_of_ne same]
        exact before
    fresh_absent := fun held => inv.fresh_absent (fresh ▸ held)
    fresh_owned := fun held => inv.fresh_owned (fresh ▸ held)
    fresh_client := by
      intro other held nonempty
      exact erased_none (inv.fresh_client (fresh ▸ held) nonempty)
    fresh_order := by
      intro other held
      obtain ⟨nonempty, before⟩ := inv.fresh_order (fresh ▸ held)
      exact ⟨nonempty, erased_none before⟩ }

theorem emplaceAt_of_none {κ : Type} [DecidableEq κ] {map : κ → Option Nat} {key : κ} {value : Nat}
    (absent : map key = none) : emplaceAt map key value = Function.update map key (some value) := by
  unfold emplaceAt
  rw [absent]

/-- A name map with the name of one more order. -/
private theorem emplaced_iff {names : Name → Option Nat} (field : Nat → Name) {ref other : Nat}
    {name : Name} {inside : Nat → Prop}
    (exact : ∀ {name other}, names name = some other ↔
      name.isEmpty = false ∧ inside other ∧ field other = name)
    (free : (field ref).isEmpty = false → names (field ref) = none) :
    (if (field ref).isEmpty then names else emplaceAt names (field ref) ref) name = some other ↔
      name.isEmpty = false ∧ (inside other ∨ other = ref) ∧ field other = name := by
  by_cases blank : (field ref).isEmpty = true
  · rw [if_pos blank, exact]
    constructor
    · rintro ⟨nonempty, otherIn, same⟩
      exact ⟨nonempty, .inl otherIn, same⟩
    · rintro ⟨nonempty, otherIn | rfl, same⟩
      · exact ⟨nonempty, otherIn, same⟩
      · rw [same, nonempty] at blank
        cases blank
  · have absent := free (by simpa using blank)
    rw [if_neg blank, emplaceAt_of_none absent]
    by_cases taken : name = field ref
    · subst taken
      rw [Function.update_self]
      constructor
      · rintro ⟨⟩
        exact ⟨by simpa using blank, .inr rfl, rfl⟩
      · rintro ⟨nonempty, otherIn | rfl, same⟩
        · have found := exact.mpr ⟨nonempty, otherIn, same⟩
          rw [absent] at found
          cases found
        · rfl
    · rw [Function.update_of_ne taken, exact]
      constructor
      · rintro ⟨nonempty, otherIn, same⟩
        exact ⟨nonempty, .inl otherIn, same⟩
      · rintro ⟨nonempty, otherIn | rfl, same⟩
        · exact ⟨nonempty, otherIn, same⟩
        · exact absurd same.symm taken

theorem registerOrder_owner {ref : Nat} (absent : ledger.owner (ledger.heap ref).id = none) :
    (ledger.registerOrder ref).owner =
      Function.update ledger.owner (ledger.heap ref).id (some ref) :=
  emplaceAt_of_none absent

theorem registerOrder_registered {ref other : Nat}
    (absent : ledger.owner (ledger.heap ref).id = none) :
    (ledger.registerOrder ref).Registered other ↔ ledger.Registered other ∨ other = ref := by
  show (ledger.registerOrder ref).owner (ledger.heap other).id = some other ↔ _
  rw [registerOrder_owner absent]
  by_cases same : (ledger.heap other).id = (ledger.heap ref).id
  · rw [same, Function.update_self]
    constructor
    · rintro ⟨⟩
      exact .inr rfl
    · rintro (otherIn | rfl)
      · rw [Registered, same, absent] at otherIn
        cases otherIn
      · rfl
  · rw [Function.update_of_ne same]
    constructor
    · exact .inl
    · rintro (otherIn | rfl)
      · exact otherIn
      · exact absurd rfl same

/-- The order in hand enters the maps and the book. -/
theorem register {ref timestamp : Nat} (inv : ledger.Indexed hand) (held : hand.fresh = some ref) :
    ((ledger.registerOrder ref).placeEntry (ledger.heap ref).id (some (ledger.entryOf ref))
      timestamp).Indexed .none := by
  have absent := inv.fresh_unregistered held
  have registered : ∀ {other}, ((ledger.registerOrder ref).placeEntry (ledger.heap ref).id
      (some (ledger.entryOf ref)) timestamp).Registered other ↔
      ledger.Registered other ∨ other = ref :=
    registerOrder_registered absent
  exact {
    owner_id := by
      intro id other ours
      change (ledger.registerOrder ref).owner id = some other at ours
      rw [registerOrder_owner absent] at ours
      by_cases same : id = (ledger.heap ref).id
      · rw [same, Function.update_self] at ours
        cases ours
        exact same.symm
      · rw [Function.update_of_ne same] at ours
        exact inv.owner_id ours
    byClient_iff := by
      intro name other
      rw [registered]
      exact emplaced_iff (fun ref => (ledger.heap ref).clientOrderId) inv.byClient_iff
        (inv.fresh_client held)
    byOrder_iff := by
      intro name other
      rw [registered]
      exact emplaced_iff (fun ref => (ledger.heap ref).orderId) inv.byOrder_iff
        (fun _ => (inv.fresh_order held).2)
    registered_owned := by
      intro other otherIn
      rcases registered.mp otherIn with before | rfl
      · exact inv.registered_owned before
      · exact inv.fresh_owned held
    entry_id := by
      intro id resting found
      by_cases same : id = (ledger.heap ref).id
      · subst same
        rw [placeEntry_entry_self] at found
        cases found
        rfl
      · rw [placeEntry_entry_of_ne same] at found
        exact inv.entry_id found
    entry_owned := by
      intro id resting found owned
      show ∃ other, (ledger.registerOrder ref).owner id = some other
      rw [registerOrder_owner absent]
      by_cases same : id = (ledger.heap ref).id
      · exact ⟨ref, by rw [same, Function.update_self]⟩
      · rw [placeEntry_entry_of_ne same] at found
        rw [Function.update_of_ne same]
        exact inv.entry_owned found owned
    entry_bound := by
      intro id resting found
      by_cases same : id = (ledger.heap ref).id
      · subst same
        exact inv.owned_bound (inv.fresh_owned held)
      · rw [placeEntry_entry_of_ne same] at found
        exact inv.entry_bound found
    owned_bound := inv.owned_bound
    numbered := inv.numbered
    live_iff := by
      intro other
      rw [registered]
      show other ∈ ledger.live ↔ _
      rw [inv.live_iff, held]
      constructor
      · rintro (otherIn | same)
        · exact .inl (.inl otherIn)
        · exact .inl (.inr (Option.some.inj same).symm)
      · rintro ((otherIn | rfl) | same)
        · exact .inl otherIn
        · exact .inr rfl
        · cases same
    live_nodup := inv.live_nodup
    freedOnce := inv.freedOnce
    resting_registered := by rintro _ ⟨⟩
    fresh_unregistered := by rintro _ ⟨⟩
    fresh_absent := by rintro _ ⟨⟩
    fresh_owned := by rintro _ ⟨⟩
    fresh_client := by rintro _ ⟨⟩
    fresh_order := by rintro _ ⟨⟩ }

theorem ne_of_unused (inv : ledger.Indexed hand) {ref other : Nat} (unused : ref ∉ ledger.live)
    (inside : ledger.Registered other) : other ≠ ref := by
  rintro rfl
  exact unused (inv.live_iff.mpr (.inl inside))

section Accept

variable {env : Environment} {ref requestTime : Nat} {order : Order} {globals : Globals}

def accepted (ledger : Ledger) (env : Environment) (ref requestTime : Nat) (order : Order) (globals : Globals) :
    Ledger :=
  { ledger with
    heap := Function.update ledger.heap ref order
    live := ref :: ledger.live
    globals }.publish env fun slot => slot.writeNewPending order requestTime

theorem accepted_heap_self : (accepted ledger env ref requestTime order globals).heap ref = order :=
  Function.update_self ..

theorem accepted_heap_of_ne {other : Nat} (different : other ≠ ref) :
    (accepted ledger env ref requestTime order globals).heap other = ledger.heap other :=
  Function.update_of_ne different ..

/-- The number a new order draws is nobody's. -/
theorem owner_of_undrawn (inv : ledger.Indexed hand) (numbered : order.id = ledger.globals.nextOrderId) :
    ledger.owner order.id = none := by
  cases ours : ledger.owner order.id with
  | none => rfl
  | some other =>
      have owned := inv.registered_owned (inv.registered ours)
      rw [inv.owner_id ours] at owned
      have := inv.owned_bound owned
      omega

theorem accepted_owned (inv : ledger.Indexed hand) (numbered : order.id = ledger.globals.nextOrderId) (id : Nat) :
    (accepted ledger env ref requestTime order globals).Owned id ↔ ledger.Owned id ∨ id = order.id := by
  constructor
  · rintro ⟨nonzero, response, member, same⟩
    rcases List.mem_append.mp member with old | new
    · exact .inl ⟨nonzero, response, old, same⟩
    · rw [List.mem_singleton] at new
      subst new
      exact .inr same.symm
  · rintro (⟨nonzero, response, member, same⟩ | rfl)
    · exact ⟨nonzero, response, List.mem_append_left _ member, same⟩
    · refine ⟨?_, _, List.mem_append_right _ (List.mem_singleton_self _), rfl⟩
      have := inv.numbered
      omega

theorem accepted_registered (inv : ledger.Indexed hand) (unused : ref ∉ ledger.live)
    (numbered : order.id = ledger.globals.nextOrderId) {other : Nat} :
    (accepted ledger env ref requestTime order globals).Registered other ↔ ledger.Registered other := by
  show ledger.owner ((accepted ledger env ref requestTime order globals).heap other).id = some other ↔ _
  by_cases same : other = ref
  · subst same
    rw [accepted_heap_self, inv.owner_of_undrawn numbered]
    constructor
    · rintro ⟨⟩
    · intro inside
      exact absurd rfl (inv.ne_of_unused unused inside)
  · rw [accepted_heap_of_ne same]
    rfl

/-- A map from names is that of the orders there were. -/
theorem accepted_named (inv : ledger.Indexed hand) (unused : ref ∉ ledger.live)
    (numbered : order.id = ledger.globals.nextOrderId) {names : Order → Name} {name : Name} {other : Nat} :
    (name.isEmpty = false ∧ (accepted ledger env ref requestTime order globals).Registered other ∧
        names ((accepted ledger env ref requestTime order globals).heap other) = name) ↔
      name.isEmpty = false ∧ ledger.Registered other ∧ names (ledger.heap other) = name := by
  rw [inv.accepted_registered unused numbered]
  refine and_congr_right fun _ => and_congr_right fun inside => ?_
  rw [accepted_heap_of_ne (inv.ne_of_unused unused inside)]

theorem accept (inv : ledger.Indexed .none) (unused : ref ∉ ledger.live)
    (numbered : order.id = ledger.globals.nextOrderId) (later : ledger.globals.Le globals)
    (drawn : ledger.globals.nextOrderId < globals.nextOrderId)
    (clientFree : order.clientOrderId.isEmpty = false → ledger.byClient order.clientOrderId = none)
    (named : order.orderId.isEmpty = false) (orderFree : ledger.byOrder order.orderId = none) :
    (accepted ledger env ref requestTime order globals).Indexed (.pending ref) where
  owner_id := by
    intro id other ours
    have inside := inv.registered ours
    rw [accepted_heap_of_ne (inv.ne_of_unused unused inside)]
    exact inv.owner_id ours
  byClient_iff := inv.byClient_iff.trans (inv.accepted_named unused numbered).symm
  byOrder_iff := inv.byOrder_iff.trans (inv.accepted_named unused numbered).symm
  registered_owned := by
    intro other inside
    have before := (inv.accepted_registered unused numbered).mp inside
    rw [accepted_heap_of_ne (inv.ne_of_unused unused before), inv.accepted_owned numbered]
    exact .inl (inv.registered_owned before)
  entry_id := inv.entry_id
  entry_owned := by
    intro id resting found owned
    rcases (inv.accepted_owned numbered id).mp owned with before | rfl
    · exact inv.entry_owned found before
    · have found : ledger.entry order.id = some resting := found
      have := inv.entry_bound found
      omega
  entry_bound := fun found => lt_of_lt_of_le (inv.entry_bound found) later.nextOrderId
  owned_bound := by
    intro id owned
    rcases (inv.accepted_owned numbered id).mp owned with before | rfl
    · exact lt_of_lt_of_le (inv.owned_bound before) later.nextOrderId
    · rw [numbered]
      exact drawn
  numbered := lt_of_lt_of_le inv.numbered later.nextOrderId
  live_iff := by
    intro other
    rw [inv.accepted_registered unused numbered]
    show other ∈ ref :: ledger.live ↔ _ ∨ some ref = some other
    rw [List.mem_cons, inv.live_iff, Option.some_inj]
    constructor
    · rintro (rfl | inside | ⟨⟨⟩⟩)
      · exact .inr rfl
      · exact .inl inside
    · rintro (inside | rfl)
      · exact .inr (.inl inside)
      · exact .inl rfl
  live_nodup := List.nodup_cons.mpr ⟨unused, inv.live_nodup⟩
  freedOnce := inv.freedOnce
  resting_registered := by rintro _ ⟨⟩
  fresh_unregistered := by
    rintro _ ⟨⟩
    rw [accepted_heap_self]
    exact inv.owner_of_undrawn numbered
  fresh_absent := by
    rintro _ ⟨⟩
    rw [accepted_heap_self]
    cases found : ledger.entry order.id with
    | none => exact found
    | some resting =>
        have := inv.entry_bound found
        omega
  fresh_owned := by
    rintro _ ⟨⟩
    rw [accepted_heap_self, inv.accepted_owned numbered]
    exact .inr rfl
  fresh_client := by
    rintro _ ⟨⟩
    rw [accepted_heap_self]
    exact clientFree
  fresh_order := by
    rintro _ ⟨⟩
    rw [accepted_heap_self]
    exact ⟨named, orderFree⟩

end Accept

end Indexed

/-! ## Data -/

/-- The fields the L3 entry and the accounting depend on. -/
structure SameData (left right : Order) : Prop where
  id : left.id = right.id
  side : left.side = right.side
  price : left.price = right.price
  priority : left.priority = right.priority
  quantity : left.quantity = right.quantity
  leavesQuantity : left.leavesQuantity = right.leavesQuantity
  cumQuantity : left.cumQuantity = right.cumQuantity
  timeInForce : left.timeInForce = right.timeInForce

namespace AgreesAt

variable {hand hand' : Hand} {ledger after : Ledger} {ref : Nat}

theorem transport (inv : ledger.AgreesAt hand ref)
    (data : SameData (after.heap ref) (ledger.heap ref))
    (owner : after.Registered ref → ledger.Registered ref)
    (entry : after.entry (ledger.heap ref).id = ledger.entry (ledger.heap ref).id)
    (bound : ledger.globals.nextPriority ≤ after.globals.nextPriority)
    (lagging : hand'.lagging = some ref ↔ hand.lagging = some ref)
    (fresh : hand'.fresh = some ref → hand.fresh = some ref) : after.AgreesAt hand' ref where
  rests := by
    intro inside caughtUp
    have before := inv.rests (owner inside) (fun lags => caughtUp (lagging.mpr lags))
    have same : after.entryOf ref = ledger.entryOf ref := by
      unfold entryOf Order.bookEntry
      rw [data.id, data.side, data.price, data.leavesQuantity, data.priority]
    rw [data.id, entry, same, data.leavesQuantity, data.quantity, data.cumQuantity]
    exact before
  lags := by
    intro lags
    have before := inv.lags (lagging.mp lags)
    rw [data.id, entry, data.side, data.leavesQuantity, data.quantity, data.cumQuantity]
    exact before
  filled_nonneg := by
    intro held
    rw [data.cumQuantity]
    exact inv.filled_nonneg (held.imp owner fresh)
  durable := by
    intro inside
    rw [data.timeInForce]
    exact inv.durable (owner inside)
  ranked := by
    intro inside
    rw [data.priority]
    have before := inv.ranked (owner inside)
    exact ⟨before.1, before.2.trans bound⟩
  whole := by
    intro held
    rw [data.quantity, data.leavesQuantity, data.cumQuantity]
    exact inv.whole (fresh held)

end AgreesAt

namespace Agrees

variable {hand hand' : Hand} {ledger after : Ledger}

/-- A change of one order and of what rests under one id: the other orders still agree. -/
theorem changeOne (inv : ledger.Agrees hand) (ref : Nat)
    (others : ∀ other, other ≠ ref → SameData (after.heap other) (ledger.heap other))
    (registered : ∀ other, other ≠ ref → after.Registered other → ledger.Registered other)
    (distinct : ∀ other, other ≠ ref → ledger.Registered other ∨ hand.lagging = some other →
      (ledger.heap other).id ≠ (ledger.heap ref).id)
    (entries : ∀ id, id ≠ (ledger.heap ref).id → after.entry id = ledger.entry id)
    (bound : ledger.globals.nextPriority ≤ after.globals.nextPriority)
    (lagging : ∀ other, other ≠ ref → (hand'.lagging = some other ↔ hand.lagging = some other))
    (fresh : ∀ other, other ≠ ref → hand'.fresh = some other → hand.fresh = some other)
    (self : after.AgreesAt hand' ref)
    (positive : ∀ resting, after.entry (ledger.heap ref).id = some resting → 0 < resting.quantity) :
    after.Agrees hand' where
  at_ := by
    intro other
    by_cases same : other = ref
    · rw [same]
      exact self
    · by_cases involved : ledger.Registered other ∨ hand.lagging = some other
      · exact (inv.at_ other).transport (others other same) (registered other same)
          (entries _ (distinct other same involved)) bound (lagging other same) (fresh other same)
      · rw [not_or] at involved
        have outside : ¬ after.Registered other := fun inside =>
          involved.1 (registered other same inside)
        have before := inv.at_ other
        have data := others other same
        exact {
          rests := fun inside => absurd inside outside
          lags := fun lags => absurd ((lagging other same).mp lags) involved.2
          filled_nonneg := by
            rintro (inside | held)
            · exact absurd inside outside
            · rw [data.cumQuantity]
              exact before.filled_nonneg (.inr (fresh other same held))
          durable := fun inside => absurd inside outside
          ranked := fun inside => absurd inside outside
          whole := by
            intro held
            rw [data.quantity, data.leavesQuantity, data.cumQuantity]
            exact before.whole (fresh other same held) }
  positive := by
    intro id resting found
    by_cases same : id = (ledger.heap ref).id
    · subst same
      exact positive resting found
    · rw [entries id same] at found
      exact inv.positive found

theorem transport (inv : ledger.Agrees hand)
    (data : ∀ ref, SameData (after.heap ref) (ledger.heap ref))
    (owner : after.owner = ledger.owner) (entry : after.entry = ledger.entry)
    (bound : ledger.globals.nextPriority ≤ after.globals.nextPriority)
    (lagging : hand'.lagging = hand.lagging) (fresh : hand'.fresh = hand.fresh) :
    after.Agrees hand' where
  at_ := by
    intro ref
    refine (inv.at_ ref).transport (data ref) ?_ (by rw [entry]) bound (by rw [lagging])
      (by rw [fresh]; exact id)
    intro inside
    unfold Registered at inside ⊢
    rwa [owner, (data ref).id] at inside
  positive := by
    intro id resting found
    rw [entry] at found
    exact inv.positive found

/-- What rests under an id that is not ours is no concern of our orders. -/
theorem placeForeign {id : Nat} (inv : ledger.Agrees hand) (indexed : ledger.Indexed hand)
    (next : Option BookOrder) (timestamp : Nat) (foreign : ledger.owner id = none)
    (positive : ∀ order, next = some order → 0 < order.quantity) :
    (ledger.placeEntry id next timestamp).Agrees hand where
  at_ := by
    intro ref
    by_cases inside : ledger.Registered ref ∨ hand.lagging = some ref
    · have registered : ledger.Registered ref := by
        rcases inside with inside | lags
        · exact inside
        · apply indexed.resting_registered
          cases hand <;> simp_all [Hand.lagging, Hand.resting]
      have different : (ledger.heap ref).id ≠ id := by
        rintro rfl
        rw [Registered, foreign] at registered
        cases registered
      exact (inv.at_ ref).transport ⟨rfl, rfl, rfl, rfl, rfl, rfl, rfl, rfl⟩ (fun h => h)
        (placeEntry_entry_of_ne different) le_rfl Iff.rfl (fun h => h)
    · rw [not_or] at inside
      have before := inv.at_ ref
      exact {
        rests := fun registered => absurd registered inside.1
        lags := fun lags => absurd lags inside.2
        filled_nonneg := before.filled_nonneg
        durable := before.durable
        ranked := before.ranked
        whole := before.whole }
  positive := by
    intro other resting found
    by_cases same : other = id
    · subst same
      rw [placeEntry_entry_self] at found
      exact positive resting found
    · rw [placeEntry_entry_of_ne same] at found
      exact inv.positive found

end Agrees

end Ledger

end SlickSim
