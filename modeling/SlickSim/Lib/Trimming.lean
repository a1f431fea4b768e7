import Mathlib.Algebra.BigOperators.Group.List.Basic
import Mathlib.Algebra.Order.BigOperators.Group.List
import Mathlib.Algebra.Order.Ring.Int
import Mathlib.Tactic.Common

/-!
# Taking an amount off the back of a queue

The records of one kind give up an amount, the last of them first: each is taken
whole until the amount ends inside one, which is reduced where it stands. The
records of other kinds are passed over. Queues are given back to front.
-/

set_option autoImplicit false

namespace Trimming

variable {α : Type} (size : α → Int) (resize : α → Int → α) (kind : α → Bool)

def takeOff : List α → Int → List α
  | [], _ => []
  | item :: rest, amount =>
      if amount ≤ 0 then item :: rest
      else if kind item = false then item :: takeOff rest amount
      else if amount < size item then resize item (size item - amount) :: rest
      else takeOff rest (amount - size item)

/-- The record an amount ends inside. -/
def cutItem : List α → Int → Option α
  | [], _ => none
  | item :: rest, amount =>
      if amount ≤ 0 then none
      else if kind item = false then cutItem rest amount
      else if amount < size item then some item
      else cutItem rest (amount - size item)

/-- Front to back, `after` is the front of `before`, its last record perhaps reduced. -/
def Trimmed (before after : List α) : Prop :=
  ∃ kept gone, before = kept ++ gone ∧
    (after = kept ∨ ∃ item rest left, gone = item :: rest ∧ 0 < left ∧ left < size item ∧
      after = kept ++ [resize item left])

variable {size resize kind} {items : List α} {item : α} {amount : Int}

theorem Trimmed.refl (items : List α) : Trimmed size resize items items :=
  ⟨items, [], (List.append_nil _).symm, .inl rfl⟩

theorem Trimmed.append {before after : List α} (trimmed : Trimmed size resize before after) (gone : List α) :
    Trimmed size resize (before ++ gone) after := by
  obtain ⟨kept, rest, rfl, same | ⟨item, others, left, rfl, positive, less, same⟩⟩ := trimmed
  · exact ⟨kept, rest ++ gone, List.append_assoc .., .inl same⟩
  · exact ⟨kept, item :: others ++ gone, List.append_assoc ..,
      .inr ⟨item, others ++ gone, left, rfl, positive, less, same⟩⟩

theorem Trimmed.mem {before after : List α} (trimmed : Trimmed size resize before after)
    (member : item ∈ after) : item ∈ before ∨ ∃ old ∈ before, ∃ left, item = resize old left := by
  obtain ⟨kept, gone, rfl, rfl | ⟨old, rest, left, rfl, -, -, rfl⟩⟩ := trimmed
  · exact .inl (List.mem_append_left _ member)
  · rcases List.mem_append.mp member with inside | isLast
    · exact .inl (List.mem_append_left _ inside)
    · exact .inr ⟨old, List.mem_append_right _ List.mem_cons_self, left, List.mem_singleton.mp isLast⟩

theorem cutItem_of_nonpos (done : amount ≤ 0) : cutItem size kind items amount = none := by
  cases items with
  | nil => rfl
  | cons item rest => exact if_pos done

theorem mem_of_cutItem (cut : cutItem size kind items amount = some item) :
    item ∈ items ∧ kind item = true := by
  induction items generalizing amount with
  | nil => cases cut
  | cons head rest ih =>
      unfold cutItem at cut
      split at cut
      · cases cut
      · split at cut <;> rename_i isKind
        · exact ⟨List.mem_cons_of_mem _ (ih cut).1, (ih cut).2⟩
        · split at cut
          · cases cut
            exact ⟨List.mem_cons_self, Bool.eq_true_of_not_eq_false isKind⟩
          · exact ⟨List.mem_cons_of_mem _ (ih cut).1, (ih cut).2⟩

/-- An amount that uses up the kind ends inside no record. -/
theorem cutItem_of_total (total : ((items.filter kind).map size).sum ≤ amount)
    (positive : ∀ item ∈ items, 0 < size item) : cutItem size kind items amount = none := by
  induction items generalizing amount with
  | nil => rfl
  | cons item rest ih =>
      have positiveRest := fun other inside => positive other (List.mem_cons_of_mem item inside)
      unfold cutItem
      split
      · rfl
      · split <;> rename_i isKind
        · rw [List.filter_cons_of_neg (by rw [isKind]; decide)] at total
          exact ih total positiveRest
        · have isKind := Bool.eq_true_of_not_eq_false isKind
          rw [List.filter_cons_of_pos isKind, List.map_cons, List.sum_cons] at total
          have restNonneg : 0 ≤ ((rest.filter kind).map size).sum := by
            apply List.sum_nonneg
            intro part member
            obtain ⟨other, inside, rfl⟩ := List.mem_map.mp member
            exact (positiveRest other (List.mem_of_mem_filter inside)).le
          rw [if_neg (by omega)]
          exact ih (by omega) positiveRest

/-- The records of other kinds stay. -/
theorem takeOff_filter_other (sameKind : ∀ item left, kind (resize item left) = kind item) :
    (takeOff size resize kind items amount).filter (fun item => !kind item) =
      items.filter fun item => !kind item := by
  induction items generalizing amount with
  | nil => rfl
  | cons item rest ih =>
      unfold takeOff
      split
      · rfl
      · split <;> rename_i isKind
        · rw [List.filter_cons, List.filter_cons, ih]
        · have isKind := Bool.eq_true_of_not_eq_false isKind
          rw [List.filter_cons_of_neg (a := item) (by rw [isKind]; decide)]
          split
          · rw [List.filter_cons_of_neg (by rw [sameKind, isKind]; decide)]
          · exact ih

/-- Of its kind the queue keeps the front. -/
theorem takeOff_trimmed (sameKind : ∀ item left, kind (resize item left) = kind item) :
    Trimmed size resize (items.filter kind).reverse
      ((takeOff size resize kind items amount).filter kind).reverse := by
  induction items generalizing amount with
  | nil => exact .refl []
  | cons item rest ih =>
      unfold takeOff
      split <;> rename_i more
      · exact .refl _
      · split <;> rename_i isKind
        · rw [List.filter_cons_of_neg (by rw [isKind]; decide),
            List.filter_cons_of_neg (by rw [isKind]; decide)]
          exact ih
        · have isKind := Bool.eq_true_of_not_eq_false isKind
          rw [List.filter_cons_of_pos isKind, List.reverse_cons]
          split <;> rename_i inside
          · rw [List.filter_cons_of_pos (by rw [sameKind, isKind]), List.reverse_cons]
            exact ⟨_, [item], rfl, .inr ⟨item, [], _, rfl, by omega, by omega, rfl⟩⟩
          · exact ih.append [item]

theorem takeOff_sublist {κ : Type} (key : α → κ) (sameKey : ∀ item left, key (resize item left) = key item) :
    ((takeOff size resize kind items amount).map key).Sublist (items.map key) := by
  induction items generalizing amount with
  | nil => exact List.Sublist.refl _
  | cons item rest ih =>
      unfold takeOff
      split
      · exact List.Sublist.refl _
      · split
        · exact ih.cons_cons _
        · split
          · rw [List.map_cons, List.map_cons, sameKey]
          · exact ih.cons _

end Trimming
