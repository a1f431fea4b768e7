import Mathlib.Algebra.Order.BigOperators.Group.List
import Mathlib.Algebra.Order.Ring.Int
import Mathlib.Data.Finset.Card
import Mathlib.Data.List.Perm.Basic
import Mathlib.Order.Basic

/-!
# Priority queues

A priority queue is the list of what is in it. Its comparator says which of two items
is served after the other, and what is served is an item no other has to precede.
Serving stops at the first item that is not ready.
-/

set_option autoImplicit false

namespace PriorityQueue

variable {α κ : Type} (after : α → α → Bool) (ready : α → Bool)

def top : List α → Option α
  | [] => none
  | item :: rest =>
      match top rest with
      | none => some item
      | some best => if after item best then some best else some item

/-- Serves items while they are ready: those served, in order, and those left. -/
def drain [DecidableEq α] : Nat → List α → List α × List α
  | 0, queue => ([], queue)
  | fuel + 1, queue =>
      match top after queue with
      | none => ([], queue)
      | some best =>
          if ready best then
            let (served, left) := drain fuel (queue.erase best)
            (best :: served, left)
          else ([], queue)

section Ranked

variable {after ready} [LinearOrder κ] {rank : α → κ}
  (ranks : ∀ left right, after left right = true ↔ rank right < rank left)

theorem top_eq_none {queue : List α} : top after queue = none ↔ queue = [] := by
  cases queue with
  | nil => exact iff_of_true rfl rfl
  | cons item rest =>
      refine iff_of_false ?_ (List.cons_ne_nil _ _)
      unfold top
      split
      · exact Option.some_ne_none _
      · split <;> exact Option.some_ne_none _

include ranks in
theorem top_least {queue : List α} {best : α} (isTop : top after queue = some best) :
    best ∈ queue ∧ ∀ item ∈ queue, rank best ≤ rank item := by
  induction queue generalizing best with
  | nil => cases isTop
  | cons head rest ih =>
      unfold top at isTop
      cases found : top after rest with
      | none =>
          rw [found] at isTop
          obtain rfl := Option.some.inj isTop
          obtain rfl := top_eq_none.mp found
          refine ⟨List.mem_singleton_self _, ?_⟩
          intro item member
          rw [List.mem_singleton.mp member]
      | some other =>
          rw [found] at isTop
          obtain ⟨inside, least⟩ := ih found
          cases later : after head other with
          | true =>
              simp only [later, if_true] at isTop
              obtain rfl := Option.some.inj isTop
              refine ⟨List.mem_cons_of_mem _ inside, ?_⟩
              intro item member
              rcases List.mem_cons.mp member with rfl | member
              · exact le_of_lt ((ranks _ _).mp later)
              · exact least item member
          | false =>
              simp only [later, Bool.false_eq_true, if_false] at isTop
              obtain rfl := Option.some.inj isTop
              have notLater : ¬ rank other < rank head := by
                rw [← ranks, later]
                exact Bool.false_ne_true
              refine ⟨List.mem_cons_self, ?_⟩
              intro item member
              rcases List.mem_cons.mp member with rfl | member
              · exact le_rfl
              · exact (not_lt.mp notLater).trans (least item member)

variable [DecidableEq α]

include ranks in
/-- Nothing is lost and nothing is served twice. -/
theorem drain_perm (fuel : Nat) (queue : List α) :
    ((drain after ready fuel queue).1 ++ (drain after ready fuel queue).2).Perm queue := by
  induction fuel generalizing queue with
  | zero => exact List.Perm.refl _
  | succ fuel ih =>
      unfold drain
      split
      · exact List.Perm.refl _
      · rename_i best isTop
        split
        · obtain ⟨member, -⟩ := top_least ranks isTop
          exact ((ih (queue.erase best)).cons best).trans (List.perm_cons_erase member).symm
        · exact List.Perm.refl _

include ranks in
/-- Items are served by rank. -/
theorem drain_sorted (fuel : Nat) (queue : List α) :
    (drain after ready fuel queue).1.Pairwise fun left right => rank left ≤ rank right := by
  induction fuel generalizing queue with
  | zero => exact List.Pairwise.nil
  | succ fuel ih =>
      unfold drain
      split
      · exact List.Pairwise.nil
      · rename_i best isTop
        split
        · refine List.Pairwise.cons ?_ (ih _)
          intro item member
          obtain ⟨-, least⟩ := top_least ranks isTop
          refine least item (List.mem_of_mem_erase (a := item) (b := best) ?_)
          exact (drain_perm ranks fuel _).subset (List.mem_append_left _ member)
        · exact List.Pairwise.nil

include ranks in
/-- What is left ranks behind what was served. -/
theorem drain_least (fuel : Nat) (queue : List α) :
    ∀ first ∈ (drain after ready fuel queue).1, ∀ second ∈ (drain after ready fuel queue).2,
      rank first ≤ rank second := by
  induction fuel generalizing queue with
  | zero => rintro _ ⟨⟩
  | succ fuel ih =>
      unfold drain
      split
      · rintro _ ⟨⟩
      · rename_i best isTop
        split
        · intro first isFirst second isSecond
          rcases List.mem_cons.mp isFirst with rfl | later
          · have left := (drain_perm ranks fuel _).subset (List.mem_append_right _ isSecond)
            exact (top_least ranks isTop).2 second (List.mem_of_mem_erase left)
          · exact ih _ first later second isSecond
        · rintro _ ⟨⟩

theorem drain_ready (fuel : Nat) (queue : List α) :
    ∀ item ∈ (drain after ready fuel queue).1, ready item = true := by
  induction fuel generalizing queue with
  | zero => rintro _ ⟨⟩
  | succ fuel ih =>
      unfold drain
      split
      · rintro _ ⟨⟩
      · split
        · rename_i isReady
          intro item member
          rcases List.mem_cons.mp member with rfl | later
          · exact isReady
          · exact ih _ item later
        · rintro _ ⟨⟩

include ranks in
/-- A queue is served until the next item is not ready. -/
theorem drain_stops {queue : List α} {best : α}
    (isTop : top after (drain after ready queue.length queue).2 = some best) : ready best = false := by
  induction length : queue.length generalizing queue with
  | zero =>
      rw [List.length_eq_zero_iff.mp length] at isTop
      cases isTop
  | succ count ih =>
      rw [length] at isTop
      unfold drain at isTop
      split at isTop
      · rename_i empty
        rw [empty] at isTop
        cases isTop
      · rename_i first isFirst
        split at isTop
        · obtain ⟨member, -⟩ := top_least ranks isFirst
          have shorter : (queue.erase first).length = count := by
            rw [List.length_erase_of_mem member, length, Nat.add_sub_cancel]
          refine ih ?_ shorter
          rw [shorter]
          exact isTop
        · rename_i waits
          rw [isFirst] at isTop
          rw [← Option.some.inj isTop]
          exact Bool.eq_false_of_not_eq_true waits

end Ranked

end PriorityQueue
