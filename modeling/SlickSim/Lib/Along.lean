import Mathlib.Algebra.Order.BigOperators.Group.List
import Mathlib.Algebra.Order.Ring.Int
import Mathlib.Data.Finset.Card
import Mathlib.Data.List.Infix

/-!
# What holds along a run

Inputs meet a condition along a run when each does in the state it comes to. Where
a step keeps a property exactly under a condition, the property holds all along a
run if and only if the condition does.
-/

set_option autoImplicit false

namespace SlickSim

variable {σ ι : Type}

/-- Each input meets the condition in the state it comes to. -/
def Along (step : σ → ι → σ) (meets : σ → ι → Prop) (state : σ) : List ι → Prop
  | [] => True
  | input :: later => meets state input ∧ Along step meets (step state input) later

instance Along.decidable {step : σ → ι → σ} {meets : σ → ι → Prop}
    [∀ state input, Decidable (meets state input)] :
    ∀ (inputs : List ι) (state : σ), Decidable (Along step meets state inputs)
  | [], _ => isTrue trivial
  | input :: later, state =>
      have : Decidable (Along step meets (step state input) later) := Along.decidable later _
      inferInstanceAs (Decidable (_ ∧ _))

namespace Along

variable {step : σ → ι → σ} {admits meets : σ → ι → Prop} {strong holds : σ → Prop} {state : σ}
  {inputs : List ι}

theorem of_forall (every : ∀ state input, meets state input) : Along step meets state inputs := by
  induction inputs generalizing state with
  | nil => trivial
  | cons input later ih => exact ⟨every state input, ih⟩

theorem append_iff {first later : List ι} : Along step meets state (first ++ later) ↔
    Along step meets state first ∧ Along step meets (first.foldl step state) later := by
  induction first generalizing state with
  | nil => exact ⟨fun met => ⟨trivial, met⟩, And.right⟩
  | cons input first ih => exact (and_congr_right fun _ => ih).trans and_assoc.symm

/-- What every step that is admitted and meets the condition keeps is kept by a run. -/
theorem run (keeps : ∀ state input, admits state input → meets state input → strong state →
      strong (step state input))
    (admitted : Along step admits state inputs) (met : Along step meets state inputs) (now : strong state) :
    strong (inputs.foldl step state) := by
  induction inputs generalizing state with
  | nil => exact now
  | cons input later ih => exact ih admitted.2 met.2 (keeps state input admitted.1 met.1 now)

/-- A property holds in every state of a run exactly when the condition holds along it, where
steps that meet the condition keep a stronger property and all others break it. -/
theorem every_iff (weakens : ∀ state, strong state → holds state)
    (needs : ∀ state input, admits state input → strong state → holds (step state input) → meets state input)
    (keeps : ∀ state input, admits state input → strong state → meets state input → strong (step state input))
    (admitted : Along step admits state inputs) (now : strong state) :
    (∀ past, past <+: inputs → holds (past.foldl step state)) ↔ Along step meets state inputs := by
  induction inputs generalizing state with
  | nil =>
      refine iff_of_true ?_ trivial
      intro past inside
      rw [List.prefix_nil.mp inside]
      exact weakens state now
  | cons input later ih =>
      have next := fun met => ih admitted.2 (keeps state input admitted.1 now met)
      constructor
      · intro every
        have met := needs state input admitted.1 now (every [input] ⟨later, rfl⟩)
        refine ⟨met, (next met).mp ?_⟩
        intro past inside
        exact every (input :: past) (List.cons_prefix_cons.mpr ⟨rfl, inside⟩)
      · rintro ⟨met, rest⟩ past inside
        rcases List.prefix_cons_iff.mp inside with rfl | ⟨earlier, rfl, within⟩
        · exact weakens state now
        · exact (next met).mpr rest earlier within

end Along

/-- What holds of every item of a list after the ones before it is proved item by item. -/
theorem forall_split_append {α : Type} {holds : List α → α → Prop} {items : List α} {last : α}
    (every : ∀ earlier item later, items = earlier ++ item :: later → holds earlier item)
    (now : holds items last) :
    ∀ earlier item later, items ++ [last] = earlier ++ item :: later → holds earlier item := by
  intro earlier item later split
  rcases List.eq_nil_or_concat later with rfl | ⟨init, final, rfl⟩
  · obtain ⟨rfl, same⟩ := List.append_inj' split rfl
    cases same
    exact now
  · rw [List.concat_eq_append, ← List.cons_append, ← List.append_assoc] at split
    obtain ⟨rfl, -⟩ := List.append_inj' split rfl
    exact every earlier item init rfl

end SlickSim
