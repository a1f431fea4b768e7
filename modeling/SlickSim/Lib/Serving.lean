import Mathlib.Algebra.BigOperators.Group.List.Basic
import Mathlib.Algebra.Order.BigOperators.Group.List
import Mathlib.Algebra.Order.Ring.Int
import Mathlib.Data.Finset.Card

/-!
# Serving a demand from a queue

A queue of items that each have a size serves a demand front to back. Every item but
the last one gives all it has.
-/

set_option autoImplicit false

namespace Serving

variable {α : Type} (size : α → Int)

def serve : List α → Int → List (α × Int)
  | [], _ => []
  | item :: rest, want =>
      if want ≤ 0 then []
      else (item, min want (size item)) :: serve rest (want - min want (size item))

/-- What is left of a queue. `shrink` takes a quantity off an item that gave only part. -/
def unserved (shrink : α → Int → α) (served : List (α × Int)) (queue : List α) : List α :=
  (served.filterMap fun given =>
    if given.2 = size given.1 then none else some (shrink given.1 given.2)) ++ queue.drop served.length

/-- The demand was served by a front part of the queue, in order, and no more than it asks. -/
structure Serves (queue : List α) (want : Int) (served : List (α × Int)) : Prop where
  inOrder : served.map Prod.fst <+: queue
  within : ∀ given ∈ served, 0 < given.2 ∧ given.2 ≤ size given.1
  whole : ∀ earlier last, served = earlier ++ [last] → ∀ given ∈ earlier, given.2 = size given.1
  total : (served.map Prod.snd).sum = min want (queue.map size).sum

variable {size} {queue : List α} {item : α} {want : Int}

theorem serve_of_nonpos (done : want ≤ 0) : serve size queue want = [] := by
  cases queue with
  | nil => rfl
  | cons item rest => exact if_pos done

theorem serve_cons (more : 0 < want) : serve size (item :: queue) want =
    (item, min want (size item)) :: serve size queue (want - min want (size item)) :=
  if_neg (by omega)

theorem mem_of_serve {given : α × Int} (member : given ∈ serve size queue want) : given.1 ∈ queue := by
  induction queue generalizing want with
  | nil => cases member
  | cons item rest ih =>
      unfold serve at member
      split at member
      · cases member
      · rcases List.mem_cons.mp member with rfl | member
        · exact List.mem_cons_self
        · exact List.mem_cons_of_mem _ (ih member)

theorem unserved_nil {shrink : α → Int → α} : unserved size shrink [] queue = queue := rfl

/-- An item that gave all it had is gone. -/
theorem unserved_whole {shrink : α → Int → α} {served : List (α × Int)} :
    unserved size shrink ((item, size item) :: served) (item :: queue) = unserved size shrink served queue := by
  unfold unserved
  rw [List.filterMap_cons, if_pos rfl]
  rfl

theorem unserved_partly {shrink : α → Int → α} {given : Int} (part : given ≠ size item) :
    unserved size shrink [(item, given)] (item :: queue) = shrink item given :: queue := by
  unfold unserved
  rw [List.filterMap_cons, if_neg part]
  rfl

private theorem sum_nonneg (positive : ∀ item ∈ queue, 0 < size item) : 0 ≤ (queue.map size).sum := by
  apply List.sum_nonneg
  intro qty member
  obtain ⟨item, inside, rfl⟩ := List.mem_map.mp member
  exact (positive item inside).le

theorem serve_serves (positive : ∀ item ∈ queue, 0 < size item) (nonneg : 0 ≤ want) :
    Serves size queue want (serve size queue want) := by
  induction queue generalizing want with
  | nil => exact ⟨List.nil_prefix, by simp [serve], by simp [serve], by simp [serve, nonneg]⟩
  | cons item rest ih =>
      have front : 0 < size item := positive item List.mem_cons_self
      have others : ∀ item ∈ rest, 0 < size item := fun other member => positive other (List.mem_cons_of_mem _ member)
      have restNonneg := sum_nonneg others
      have whole : ((item :: rest).map size).sum = size item + (rest.map size).sum := by
        rw [List.map_cons, List.sum_cons]
      by_cases done : want ≤ 0
      · rw [serve_of_nonpos done]
        refine ⟨List.nil_prefix, by simp, by simp, ?_⟩
        rw [whole, List.map_nil, List.sum_nil]
        omega
      rw [serve_cons (by omega)]
      have later : Serves size rest (want - min want (size item)) _ := ih others (by omega)
      refine ⟨?_, ?_, ?_, ?_⟩
      · rw [List.map_cons]
        exact (List.prefix_cons_inj item).mpr later.inOrder
      · intro given member
        rcases List.mem_cons.mp member with rfl | member
        · exact ⟨by show 0 < min want (size item); omega, Int.min_le_right _ _⟩
        · exact later.within given member
      · intro earlier last split given member
        cases earlier with
        | nil => cases member
        | cons first between =>
            obtain ⟨rfl, isRest⟩ := List.cons.inj split
            rcases List.mem_cons.mp member with rfl | member
            · -- Something was served after the front item, so it did not meet the demand.
              have more : 0 < want - min want (size item) := by
                by_contra met
                rw [serve_of_nonpos (by omega)] at isRest
                exact absurd isRest.symm (by simp)
              show min want (size item) = size item
              omega
            · exact later.whole between last isRest given member
      · rw [List.map_cons, List.sum_cons, later.total, whole]
        show min want (size item) + _ = _
        omega

end Serving
