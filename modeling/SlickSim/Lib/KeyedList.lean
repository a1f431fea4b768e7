import Mathlib.Algebra.BigOperators.Group.List.Basic
import Mathlib.Algebra.Order.BigOperators.Group.List
import Mathlib.Algebra.Order.Ring.Int
import Mathlib.Data.Finset.Card
import Mathlib.Data.Int.Basic
import Mathlib.Data.List.Nodup
import Mathlib.Data.List.Perm.Basic
import Mathlib.Tactic.Common

/-!
# Lists of records with distinct keys

A queue of records is changed in three ways: a record leaves, a record is
rewritten where it stands, or a record is put in at some position. Up to order
each of them is one `Replaces`: the record of one key is exchanged for another
record of that key, or for none.
-/

set_option autoImplicit false

namespace KeyedList

variable {α κ : Type} [DecidableEq κ] (key : α → κ)

def eraseKey (k : κ) (items : List α) : List α :=
  items.filter fun item => decide (key item ≠ k)

def setKey (k : κ) (next : α → α) (items : List α) : List α :=
  items.map fun item => if key item = k then next item else item

/-- `after` is `before` with one record put in somewhere. -/
def Inserts (item : α) (before after : List α) : Prop :=
  ∃ front back, before = front ++ back ∧ after = front ++ item :: back

/-- Up to order, `after` is `before` with the record of key `k` exchanged for
`next`. -/
def Replaces (k : κ) (next : Option α) (before after : List α) : Prop :=
  after.Perm (next.toList ++ eraseKey key k before)

variable {key}

@[simp] theorem mem_eraseKey {k : κ} {items : List α} {item : α} :
    item ∈ eraseKey key k items ↔ item ∈ items ∧ key item ≠ k := by
  simp [eraseKey]

theorem eraseKey_of_absent {k : κ} {items : List α} (absent : ∀ item ∈ items, key item ≠ k) :
    eraseKey key k items = items := by
  apply List.filter_eq_self.mpr
  intro item member
  simpa using absent item member

theorem eraseKey_append (k : κ) (left right : List α) :
    eraseKey key k (left ++ right) = eraseKey key k left ++ eraseKey key k right :=
  List.filter_append ..

theorem eraseKey_cons_self (item : α) (items : List α) :
    eraseKey key (key item) (item :: items) = eraseKey key (key item) items := by
  simp [eraseKey]

theorem eraseKey_cons_of_ne {k : κ} {item : α} (different : key item ≠ k) (items : List α) :
    eraseKey key k (item :: items) = item :: eraseKey key k items := by
  simp [eraseKey, different]

theorem eraseKey_head {item : α} {items : List α}
    (distinct : ((item :: items).map key).Nodup) :
    eraseKey key (key item) (item :: items) = items := by
  rw [eraseKey_cons_self]
  apply eraseKey_of_absent
  intro other member same
  have fresh := (List.nodup_cons.mp distinct).1
  exact fresh (List.mem_map.mpr ⟨other, member, same⟩)

theorem setKey_of_absent {k : κ} {items : List α} (next : α → α)
    (absent : ∀ item ∈ items, key item ≠ k) : setKey key k next items = items := by
  unfold setKey
  rw [List.map_congr_left (g := id) (fun item member => by simp [absent item member])]
  exact List.map_id items

theorem setKey_head {item : α} {items : List α} (distinct : ((item :: items).map key).Nodup)
    (next : α → α) : setKey key (key item) next (item :: items) = next item :: items := by
  have absent : ∀ other ∈ items, key other ≠ key item := by
    intro other inside same
    exact (List.nodup_cons.mp distinct).1 (List.mem_map.mpr ⟨other, inside, same⟩)
  have kept := setKey_of_absent next absent
  simp only [setKey, List.map_cons, ↓reduceIte] at kept ⊢
  rw [kept]

/-- Rewriting in place exchanges the record of that key, up to order. -/
theorem setKey_perm {items : List α} {item : α} (next : α → α)
    (distinct : (items.map key).Nodup) (member : item ∈ items) :
    (setKey key (key item) next items).Perm (next item :: eraseKey key (key item) items) := by
  induction items with
  | nil => cases member
  | cons head tail ih =>
      have fresh := (List.nodup_cons.mp distinct).1
      have rest := (List.nodup_cons.mp distinct).2
      rcases List.mem_cons.mp member with rfl | member
      · have absent : ∀ other ∈ tail, key other ≠ key item := by
          intro other inside same
          exact fresh (List.mem_map.mpr ⟨other, inside, same⟩)
        rw [setKey_head distinct, eraseKey_cons_self, eraseKey_of_absent absent]
      · have different : key head ≠ key item := by
          intro same
          exact fresh (List.mem_map.mpr ⟨item, member, same.symm⟩)
        have step : setKey key (key item) next (head :: tail) =
            head :: setKey key (key item) next tail := by
          simp [setKey, different]
        rw [step, eraseKey_cons_of_ne different]
        exact ((ih rest member).cons head).trans (List.Perm.swap ..)

theorem Inserts.perm {item : α} {before after : List α} (inserted : Inserts item before after) :
    after.Perm (item :: before) := by
  obtain ⟨front, back, rfl, rfl⟩ := inserted
  exact List.perm_middle

theorem Inserts.mem_iff {item : α} {before after : List α} (inserted : Inserts item before after)
    {other : α} : other ∈ after ↔ other = item ∨ other ∈ before := by
  rw [inserted.perm.mem_iff, List.mem_cons]

namespace Replaces

variable {k : κ} {next : Option α} {before after : List α}

theorem mem_iff (replaced : Replaces key k next before after) {item : α} :
    item ∈ after ↔ next = some item ∨ (item ∈ before ∧ key item ≠ k) := by
  rw [List.Perm.mem_iff replaced, List.mem_append, Option.mem_toList, mem_eraseKey]

/-- Two halves of a book, one of which holds no record of the key. -/
theorem append_right {other : List α} (replaced : Replaces key k next before after)
    (absent : ∀ item ∈ other, key item ≠ k) :
    Replaces key k next (before ++ other) (after ++ other) := by
  unfold Replaces
  rw [eraseKey_append, eraseKey_of_absent absent, ← List.append_assoc]
  exact List.Perm.append_right other replaced

theorem append_left {other : List α} (replaced : Replaces key k next before after)
    (absent : ∀ item ∈ other, key item ≠ k) :
    Replaces key k next (other ++ before) (other ++ after) := by
  have swapped := replaced.append_right absent
  unfold Replaces at swapped ⊢
  rw [eraseKey_append] at swapped ⊢
  refine (List.perm_append_comm.trans swapped).trans ?_
  exact List.Perm.append_left _ List.perm_append_comm

/-- What a weight summed over the list gains and loses by the exchange. -/
theorem sum_eq (replaced : Replaces key k next before after) (weight : α → Int) :
    (after.map weight).sum =
      (next.toList.map weight).sum + ((eraseKey key k before).map weight).sum := by
  rw [(List.Perm.map weight replaced).sum_eq, List.map_append, List.sum_append]

end Replaces

theorem sum_eraseKey {items : List α} {item : α} (weight : α → Int)
    (distinct : (items.map key).Nodup) (member : item ∈ items) :
    ((eraseKey key (key item) items).map weight).sum = (items.map weight).sum - weight item := by
  have perm := setKey_perm id distinct member
  have same : setKey key (key item) id items = items := by
    unfold setKey
    rw [List.map_congr_left (g := id) (fun other _ => by split <;> rfl)]
    exact List.map_id items
  rw [same] at perm
  have total := (perm.map weight).sum_eq
  simp only [id_eq, List.map_cons, List.sum_cons] at total
  omega

theorem filter_key {items : List α} {item : α} (distinct : (items.map key).Nodup) (member : item ∈ items) :
    items.filter (fun other => decide (key other = key item)) = [item] := by
  induction items with
  | nil => cases member
  | cons head tail ih =>
      obtain ⟨fresh, rest⟩ := List.nodup_cons.mp distinct
      rcases List.mem_cons.mp member with rfl | member
      · rw [List.filter_cons_of_pos (by simp), List.filter_eq_nil_iff.mpr]
        intro other inside same
        exact fresh (List.mem_map.mpr ⟨other, inside, of_decide_eq_true same⟩)
      · rw [List.filter_cons_of_neg, ih rest member]
        intro same
        exact fresh (List.mem_map.mpr ⟨item, member, (of_decide_eq_true same).symm⟩)

omit [DecidableEq κ] in
theorem eq_of_key {items : List α} {left right : α} (distinct : (items.map key).Nodup)
    (leftMember : left ∈ items) (rightMember : right ∈ items) (same : key left = key right) :
    left = right :=
  List.inj_on_of_nodup_map distinct leftMember rightMember same

end KeyedList
