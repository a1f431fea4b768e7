import Mathlib.Algebra.Order.BigOperators.Group.List
import Mathlib.Algebra.Order.Ring.Int
import Mathlib.Data.Finset.Card

/-!
# Loops as rounds

A loop is what one round of it does. A round may fail, for a check that is not met. A loop whose
rounds keep an invariant and bring a measure down ends without a failure, and how many rounds it
is allowed does not matter.
-/

set_option autoImplicit false

namespace Rounds

inductive Round (σ ρ : Type) where
  | ends (result : ρ)
  | goesOn (state : σ)
  | fails

variable {σ ρ : Type}

/-- Goes round until a round ends the loop. Nothing when one fails, or when there are no more
rounds to go. -/
def run (round : σ → Round σ ρ) : Nat → σ → Option ρ
  | 0, _ => none
  | limit + 1, state =>
      match round state with
      | .ends result => some result
      | .goesOn next => run round limit next
      | .fails => none

/-- A round does not fail, and if the loop goes on, it keeps the invariant and has less to do. -/
def Round.Advances (holds : σ → Prop) (todo : σ → Nat) (state : σ) : Round σ ρ → Prop
  | .ends _ => True
  | .goesOn next => holds next ∧ todo next < todo state
  | .fails => False

/-- A round keeps the invariant and whether the loop can be gone through with. It fails only if it
cannot and, where nothing else would stop the loop, ends only if it can. -/
def Round.Decides (holds fits : σ → Prop) (todo : σ → Nat) (unstopped : Prop) (state : σ) : Round σ ρ → Prop
  | .ends _ => unstopped → fits state
  | .goesOn next => (holds next ∧ todo next < todo state) ∧ (fits next ↔ fits state)
  | .fails => ¬ fits state

/-- What a loop comes to is what its round says, where `later` is what it comes to from the next. -/
def Round.Yields (later : σ → ρ) (now : ρ) : Round σ ρ → Prop
  | .ends result => now = result
  | .goesOn next => now = later next
  | .fails => True

variable {round : σ → Round σ ρ} {holds fits : σ → Prop} {todo : σ → Nat} {unstopped : Prop}

theorem Round.Decides.advances {state : σ} {here : Round σ ρ} (decides : here.Decides holds fits todo unstopped state)
    (fit : fits state) : here.Advances (fun next => holds next ∧ fits next) todo state := by
  cases here with
  | ends => trivial
  | goesOn next => exact ⟨⟨decides.1.1, decides.2.mpr fit⟩, decides.1.2⟩
  | fails => exact absurd fit decides

theorem run_ends (advances : ∀ state, holds state → (round state).Advances holds todo state) (limit : Nat) :
    ∀ state, holds state → todo state < limit → ∃ result, run round limit state = some result := by
  induction limit with
  | zero => exact fun state _ enough => absurd enough (Nat.not_lt_zero _)
  | succ limit ih =>
      intro state now enough
      have step := advances state now
      rw [run]
      cases goes : round state with
      | ends result => exact ⟨result, rfl⟩
      | goesOn next =>
          rw [goes] at step
          exact ih next step.1 (Nat.lt_of_lt_of_le step.2 (Nat.le_of_lt_succ enough))
      | fails =>
          rw [goes] at step
          exact step.elim

/-- More rounds than a loop takes change nothing. -/
theorem run_more {limit more : Nat} (fewer : limit ≤ more) {state : σ} {result : ρ}
    (ended : run round limit state = some result) : run round more state = some result := by
  induction limit generalizing more state with
  | zero => cases ended
  | succ limit ih =>
      obtain ⟨more, rfl⟩ :=
        Nat.exists_eq_add_one_of_ne_zero (Nat.ne_of_gt (Nat.lt_of_lt_of_le (Nat.succ_pos limit) fewer))
      rw [run] at ended ⊢
      cases goes : round state with
      | ends result => rwa [goes] at ended
      | goesOn next =>
          rw [goes] at ended
          exact ih (Nat.le_of_succ_le_succ fewer) ended
      | fails =>
          rw [goes] at ended
          cases ended

/-- A loop that brings its measure down ends with one result, for every limit that allows for it. -/
theorem run_terminates (advances : ∀ state, holds state → (round state).Advances holds todo state)
    {state : σ} (now : holds state) {limit : Nat} (enough : todo state < limit) :
    ∃ result, ∀ more ≥ limit, run round more state = some result := by
  obtain ⟨result, ended⟩ := run_ends advances limit state now enough
  exact ⟨result, fun _ fewer => run_more fewer ended⟩

theorem Round.Decides.next {state next : σ} {here : Round σ ρ} (decides : here.Decides holds fits todo unstopped state)
    (goes : here = .goesOn next) : holds next := by
  rw [goes] at decides
  exact decides.1.1

/-- A loop that cannot be gone through with fails, unless something else stops it. -/
theorem run_fails (decides : ∀ state, holds state → (round state).Decides holds fits todo unstopped state)
    (goes : unstopped) (limit : Nat) :
    ∀ state, holds state → ¬ fits state → run round limit state = none := by
  induction limit with
  | zero => exact fun _ _ _ => rfl
  | succ limit ih =>
      intro state now unfit
      have step := decides state now
      rw [run]
      cases comes : round state with
      | ends result =>
          rw [comes] at step
          exact absurd (step goes) unfit
      | goesOn next =>
          rw [comes] at step
          exact ih next step.1.1 fun fit => unfit (step.2.mp fit)
      | fails => rfl

theorem run_eq (loop : Nat → σ → ρ) (holds : σ → Prop)
    (keeps : ∀ state next, holds state → round state = .goesOn next → holds next)
    (yields : ∀ limit state, holds state → (round state).Yields (loop limit) (loop (limit + 1) state))
    {limit : Nat} {state : σ} (now : holds state) {result : ρ} (ended : run round limit state = some result) :
    loop limit state = result := by
  induction limit generalizing state with
  | zero => cases ended
  | succ limit ih =>
      have step := yields limit state now
      rw [run] at ended
      cases goes : round state with
      | ends result =>
          rw [goes] at step ended
          exact step.trans (Option.some.inj ended)
      | goesOn next =>
          rw [goes] at step ended
          exact step.trans (ih (keeps state next now goes) ended)
      | fails =>
          rw [goes] at ended
          cases ended

end Rounds
