import Mathlib.Algebra.Order.BigOperators.Group.List
import Mathlib.Algebra.Order.Ring.Int
import Mathlib.Data.Finset.Card
import Mathlib.Data.List.Nodup
import Mathlib.Data.List.Perm.Basic
import Mathlib.Order.RelClasses
import Mathlib.Tactic.Common

/-!
# Patches of sorted tables

A table lists values under distinct keys in a fixed order. A patch names the rows
that left by their position in the old table, and the rows that are new or changed
by key. A patch that leaves out only rows both tables have in common rebuilds the
new table from the old one.
-/

set_option autoImplicit false

namespace SortedPatch

variable {κ ν : Type} (before : κ → κ → Prop)

def Ordered (rows : List (κ × ν)) : Prop :=
  rows.Pairwise fun left right => before left.1 right.1

def removeAt (indices : List Nat) (rows : List (κ × ν)) : List (κ × ν) :=
  (rows.zipIdx.filter fun row => decide (row.2 ∉ indices)).map Prod.fst

/-- Removes rows one at a time, each position counted in what is left by then. -/
def splice : List Nat → List (κ × ν) → Option (List (κ × ν))
  | [], rows => some rows
  | index :: rest, rows => if index < rows.length then splice rest (rows.eraseIdx index) else none

def put [DecidableEq κ] [DecidableRel before] (row : κ × ν) : List (κ × ν) → List (κ × ν)
  | [] => [row]
  | head :: rest =>
      if row.1 = head.1 then row :: rest
      else if before row.1 head.1 then row :: head :: rest
      else head :: put row rest

/-- Removes rows by position in the old table, then sets the changed ones. -/
def patch [DecidableEq κ] [DecidableRel before] (removed : List Nat) (changed rows : List (κ × ν)) :
    List (κ × ν) :=
  changed.foldl (fun rows row => put before row rows) (removeAt removed rows)

variable {before}

theorem removeAt_eq_filter {indices : List Nat} {rows : List (κ × ν)} {kept : κ × ν → Bool}
    (listed : ∀ row index, (row, index) ∈ rows.zipIdx → (index ∈ indices ↔ kept row = false)) :
    removeAt indices rows = rows.filter kept := by
  have same : rows.zipIdx.filter (fun row => decide (row.2 ∉ indices)) =
      rows.zipIdx.filter (kept ∘ Prod.fst) := by
    apply List.filter_congr
    rintro ⟨row, index⟩ member
    rw [Bool.eq_iff_iff, decide_eq_true_iff, listed row index member, Function.comp_apply,
      Bool.not_eq_false]
  have mapped : (rows.zipIdx.map Prod.fst).filter kept =
      (rows.zipIdx.filter (kept ∘ Prod.fst)).map Prod.fst := List.filter_map ..
  rw [removeAt, same, ← mapped, List.zipIdx_map_fst]

private theorem removeAt_cons {index : Nat} {rest : List Nat} {rows : List (κ × ν)}
    (below : ∀ other ∈ rest, other < index) (inside : index < rows.length) :
    removeAt (index :: rest) rows = removeAt rest (rows.eraseIdx index) := by
  obtain ⟨front, row, back, rfl, rfl⟩ : ∃ front row back, rows = front ++ row :: back ∧ front.length = index :=
    ⟨rows.take index, rows[index], rows.drop (index + 1), by simp, by simp; omega⟩
  have behind : ∀ (first : Nat) (list : List Nat), (∀ other ∈ list, other < first) →
      (back.zipIdx first).filter (fun row => decide (row.2 ∉ list)) = back.zipIdx first := by
    intro first list less
    apply List.filter_eq_self.mpr
    rintro ⟨other, position⟩ member
    obtain ⟨late, -⟩ := List.mem_zipIdx member
    exact decide_eq_true fun listed => Nat.not_lt.mpr late (less position listed)
  have ahead : front.zipIdx.filter (fun row => decide (row.2 ∉ front.length :: rest)) =
      front.zipIdx.filter (fun row => decide (row.2 ∉ rest)) := by
    apply List.filter_congr
    rintro ⟨other, position⟩ member
    have early := (List.mem_zipIdx member).2.1
    have elsewhere : position ≠ front.length := by
      rw [Nat.zero_add] at early
      exact early.ne
    simp [elsewhere]
  have erased : (front ++ row :: back).eraseIdx front.length = front ++ back := by
    rw [List.eraseIdx_append_of_length_le le_rfl, Nat.sub_self, List.eraseIdx_cons_zero]
  unfold removeAt
  rw [erased, List.zipIdx_append, List.zipIdx_append, List.filter_append, List.filter_append, ahead,
    List.zipIdx_cons, List.filter_cons_of_neg (by simp), Nat.zero_add,
    behind (front.length + 1) _ (List.forall_mem_cons.mpr ⟨Nat.lt_succ_self _, fun other listed =>
      Nat.lt_succ_of_lt (below other listed)⟩), behind front.length _ below, List.map_append,
    List.map_append, List.zipIdx_map_fst, List.zipIdx_map_fst]

/-- From the last position to the first, no removal moves a row that is still to go. -/
theorem splice_eq_removeAt {indices : List Nat} (descending : indices.Pairwise (· > ·))
    {rows : List (κ × ν)} (inside : ∀ index ∈ indices, index < rows.length) :
    splice indices rows = some (removeAt indices rows) := by
  induction indices generalizing rows with
  | nil => simp [splice, removeAt]
  | cons index rest ih =>
      obtain ⟨below, descending⟩ := List.pairwise_cons.mp descending
      have here := inside index List.mem_cons_self
      rw [splice, if_pos here, removeAt_cons below here]
      apply ih descending
      intro other listed
      have less := below other listed
      rw [List.length_eraseIdx_of_lt here]
      omega

/-- Where keys are distinct, removing positions is removing their keys. -/
theorem removeAt_eq_filter_keys [DecidableEq κ] {rows : List (κ × ν)} (distinct : (rows.map Prod.fst).Nodup)
    (indices : List Nat) :
    removeAt indices rows = rows.filter fun row =>
      decide (row.1 ∉ indices.filterMap fun index => (rows.map Prod.fst)[index]?) := by
  apply removeAt_eq_filter
  intro row index member
  have here : (rows.map Prod.fst)[index]? = some row.1 := by
    rw [List.getElem?_map, List.mk_mem_zipIdx_iff_getElem?.mp member, Option.map_some]
  rw [decide_eq_false_iff_not, not_not, List.mem_filterMap]
  constructor
  · intro listed
    exact ⟨index, listed, here⟩
  · rintro ⟨other, listed, same⟩
    obtain ⟨inside, -⟩ := List.getElem?_eq_some_iff.mp same
    exact (List.getElem?_inj inside distinct).mp (same.trans here.symm) ▸ listed

section Lookup

variable [DecidableEq κ]

theorem lookup_cons_ite (row : κ × ν) (rest : List (κ × ν)) (key : κ) :
    (row :: rest).lookup key = if key = row.1 then some row.2 else rest.lookup key := by
  rw [List.lookup_cons]
  by_cases here : key = row.1
  · rw [if_pos here, beq_iff_eq.mpr here]
  · rw [if_neg here, beq_false_of_ne here]

theorem lookup_filter_keys (kept : κ → Bool) (rows : List (κ × ν)) (key : κ) :
    (rows.filter fun row => kept row.1).lookup key = if kept key then rows.lookup key else none := by
  induction rows with
  | nil => simp
  | cons row rest ih =>
      rw [List.filter_cons, lookup_cons_ite]
      by_cases here : key = row.1
      · subst here
        split <;> rename_i stays
        · rw [lookup_cons_ite, if_pos rfl, if_pos rfl]
        · rw [ih, if_neg stays]
      · rw [if_neg here, ← ih]
        split
        · rw [lookup_cons_ite, if_neg here]
        · rfl

theorem lookup_put [DecidableRel before] (row : κ × ν) (rows : List (κ × ν)) (key : κ) :
    (put before row rows).lookup key = if key = row.1 then some row.2 else rows.lookup key := by
  induction rows with
  | nil => rw [put, lookup_cons_ite]
  | cons head rest ih =>
      unfold put
      split <;> rename_i sameKey
      · rw [lookup_cons_ite, lookup_cons_ite, ← sameKey]
        split <;> rfl
      · split
        · rw [lookup_cons_ite]
        · rw [lookup_cons_ite, lookup_cons_ite, ih]
          by_cases here : key = row.1
          · rw [if_pos here, if_neg (here ▸ sameKey), if_pos here]
          · rw [if_neg here, if_neg here]

end Lookup

section Order

variable [IsStrictTotalOrder κ before]

theorem Ordered.nodup_keys {rows : List (κ × ν)} (ordered : Ordered before rows) :
    (rows.map Prod.fst).Nodup := by
  rw [List.Nodup, List.pairwise_map]
  refine List.Pairwise.imp ?_ ordered
  intro left right less sameKey
  exact irrefl_of before left.1 (sameKey ▸ less)

theorem Ordered.nodup {rows : List (κ × ν)} (ordered : Ordered before rows) : rows.Nodup :=
  ordered.nodup_keys.of_map

theorem Ordered.key_injective {rows : List (κ × ν)} (ordered : Ordered before rows)
    {left right : κ × ν} (leftMember : left ∈ rows) (rightMember : right ∈ rows)
    (sameKey : left.1 = right.1) : left = right :=
  List.inj_on_of_nodup_map ordered.nodup_keys leftMember rightMember sameKey

/-- An ordered table is determined by its rows. -/
theorem Ordered.ext {left right : List (κ × ν)} (leftOrdered : Ordered before left)
    (rightOrdered : Ordered before right) (same : ∀ row, row ∈ left ↔ row ∈ right) :
    left = right := by
  have perm : left.Perm right :=
    (List.perm_ext_iff_of_nodup leftOrdered.nodup rightOrdered.nodup).mpr same
  refine perm.eq_of_pairwise ?_ leftOrdered rightOrdered
  intro first second _ _ less greater
  exact absurd greater (asymm_of before less)

variable [DecidableEq κ] [DecidableRel before]

theorem mem_put {rows : List (κ × ν)} (ordered : Ordered before rows) (row other : κ × ν) :
    other ∈ put before row rows ↔ other = row ∨ other ∈ rows ∧ other.1 ≠ row.1 := by
  induction rows with
  | nil => simp [put]
  | cons head rest ih =>
      obtain ⟨first, ordered⟩ := List.pairwise_cons.mp ordered
      unfold put
      split
      case isTrue sameKey =>
        have later : ∀ other ∈ rest, other.1 ≠ row.1 := by
          intro other member same
          have less := first other member
          rw [same, sameKey] at less
          exact irrefl_of before head.1 less
        grind
      case isFalse differentKey =>
        split
        case isTrue less =>
          have later : ∀ other ∈ head :: rest, other.1 ≠ row.1 := by
            rintro other member same
            rcases List.mem_cons.mp member with rfl | member
            · exact differentKey same.symm
            · exact asymm_of before less (same ▸ first other member)
          grind
        case isFalse =>
          rw [List.mem_cons, ih ordered, List.mem_cons]
          grind

theorem put_ordered {rows : List (κ × ν)} (ordered : Ordered before rows) (row : κ × ν) :
    Ordered before (put before row rows) := by
  induction rows with
  | nil => exact List.pairwise_singleton ..
  | cons head rest ih =>
      obtain ⟨first, restOrdered⟩ := List.pairwise_cons.mp ordered
      unfold put
      split
      case isTrue sameKey =>
        refine List.Pairwise.cons ?_ restOrdered
        intro other member
        exact sameKey ▸ first other member
      case isFalse differentKey =>
        split
        case isTrue less =>
          refine List.Pairwise.cons ?_ ordered
          intro other member
          rcases List.mem_cons.mp member with rfl | member
          · exact less
          · exact trans_of before less (first other member)
        case isFalse notLess =>
          have greater : before head.1 row.1 :=
            ((trichotomous_of before row.1 head.1).resolve_left notLess).resolve_left differentKey
          refine List.Pairwise.cons ?_ (ih restOrdered)
          intro other member
          rcases (mem_put restOrdered row other).mp member with rfl | ⟨member, -⟩
          · exact greater
          · exact first other member

theorem foldl_put_ordered (changed : List (κ × ν)) {rows : List (κ × ν)}
    (ordered : Ordered before rows) :
    Ordered before (changed.foldl (fun rows row => put before row rows) rows) := by
  induction changed generalizing rows with
  | nil => exact ordered
  | cons row changed ih => exact ih (put_ordered ordered row)

theorem mem_foldl_put {changed : List (κ × ν)} (distinct : (changed.map Prod.fst).Nodup)
    {rows : List (κ × ν)} (ordered : Ordered before rows) (other : κ × ν) :
    other ∈ changed.foldl (fun rows row => put before row rows) rows ↔
      other ∈ changed ∨ other ∈ rows ∧ other.1 ∉ changed.map Prod.fst := by
  induction changed generalizing rows with
  | nil => simp
  | cons row changed ih =>
      obtain ⟨fresh, distinct⟩ := List.nodup_cons.mp distinct
      have unlisted : row.1 ∉ changed.map Prod.fst := fresh
      rw [List.foldl_cons, ih distinct (put_ordered ordered row), mem_put ordered, List.map_cons,
        List.mem_cons, List.mem_cons]
      grind

/-- Where the positions listed are those of the keys that are gone, and every row not
sent again was in the old table, the patch gives the new table. -/
theorem patch_eq {rows next changed : List (κ × ν)} {removed : List Nat}
    (ordered : Ordered before rows) (nextOrdered : Ordered before next)
    (gone : ∀ row index, (row, index) ∈ rows.zipIdx →
      (index ∈ removed ↔ row.1 ∉ next.map Prod.fst))
    (sent : changed.Sublist next) (unsent : ∀ row ∈ next, row ∉ changed → row ∈ rows) :
    patch before removed changed rows = next := by
  have kept : removeAt removed rows = rows.filter fun row => decide (row.1 ∈ next.map Prod.fst) := by
    apply removeAt_eq_filter
    intro row index member
    rw [gone row index member, decide_eq_false_iff_not]
  have keptOrdered : Ordered before (removeAt removed rows) := by
    rw [kept]
    exact ordered.filter _
  refine (foldl_put_ordered changed keptOrdered).ext nextOrdered ?_
  intro row
  rw [mem_foldl_put (nextOrdered.nodup_keys.sublist (sent.map _)) keptOrdered, kept,
    List.mem_filter, decide_eq_true_iff]
  constructor
  · rintro (member | ⟨⟨member, present⟩, unlisted⟩)
    · exact sent.subset member
    · obtain ⟨other, otherNext, sameKey⟩ := List.mem_map.mp present
      have otherUnsent : other ∉ changed := by
        intro listed
        exact unlisted (sameKey ▸ List.mem_map_of_mem listed)
      have same := ordered.key_injective (unsent other otherNext otherUnsent) member sameKey
      exact same ▸ otherNext
  · intro member
    by_cases listed : row ∈ changed
    · exact .inl listed
    · refine .inr ⟨⟨unsent row member listed, List.mem_map_of_mem member⟩, ?_⟩
      intro keyListed
      obtain ⟨other, otherListed, sameKey⟩ := List.mem_map.mp keyListed
      have same := nextOrdered.key_injective (sent.subset otherListed) member sameKey
      exact listed (same ▸ otherListed)

end Order

end SortedPatch
