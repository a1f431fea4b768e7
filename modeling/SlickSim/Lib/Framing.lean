import Mathlib.Data.List.Basic

/-!
# Framing

A message is cut from the front of a stream once all of it is there. Data that comes later
does not change a message that is whole, so it does not matter in which pieces a stream comes.
-/

set_option autoImplicit false

/-- How a stream is cut: the first whole message and how many items it takes up. -/
structure Framing (α μ : Type) where
  next : List α → Option (μ × Nat)
  bounds : ∀ {data message size}, next data = some (message, size) → 0 < size ∧ size ≤ data.length
  stable : ∀ {data message size}, next data = some (message, size) →
    ∀ more, next (data ++ more) = some (message, size)

namespace Framing

variable {α μ : Type} (framing : Framing α μ)

/-- The whole messages at the front of the data, and what is left behind them. -/
def cut (data : List α) : List μ × List α :=
  match _found : framing.next data with
  | none => ([], data)
  | some (message, size) =>
      let following := cut (data.drop size)
      (message :: following.1, following.2)
termination_by data.length
decreasing_by
  have := framing.bounds _found
  rw [List.length_drop]
  omega

def messages (data : List α) : List μ := (framing.cut data).1

def rest (data : List α) : List α := (framing.cut data).2

variable {framing} {data : List α}

theorem cut_of_none (found : framing.next data = none) : framing.cut data = ([], data) := by
  rw [cut]
  split
  · rfl
  · rename_i other
    rw [found] at other
    cases other

theorem cut_of_some {message : μ} {size : Nat} (found : framing.next data = some (message, size)) :
    framing.cut data = (message :: framing.messages (data.drop size), framing.rest (data.drop size)) := by
  rw [cut]
  split
  · rename_i other
    rw [found] at other
    cases other
  · rename_i other
    rw [found] at other
    cases other
    rfl

variable (framing data)

theorem rest_suffix : framing.rest data <:+ data := by
  unfold rest
  induction data using Framing.cut.induct framing with
  | case1 data found => exact (congrArg Prod.snd (cut_of_none found)).symm ▸ List.suffix_rfl
  | case2 data message size found ih =>
      rw [cut_of_some found]
      exact ih.trans (List.drop_suffix ..)

theorem drop_consumed : data.drop (data.length - (framing.rest data).length) = framing.rest data :=
  (List.suffix_iff_eq_drop.mp (framing.rest_suffix data)).symm

theorem next_rest : framing.next (framing.rest data) = none := by
  unfold rest
  induction data using Framing.cut.induct framing with
  | case1 data found =>
      rw [cut_of_none found]
      exact found
  | case2 data message size found ih =>
      rw [cut_of_some found]
      exact ih

/-- Data that comes later is cut where the earlier data left off. -/
theorem cut_append (more : List α) : framing.cut (data ++ more) =
    (framing.messages data ++ framing.messages (framing.rest data ++ more),
      framing.rest (framing.rest data ++ more)) := by
  unfold messages rest
  induction data using Framing.cut.induct framing with
  | case1 data found =>
      rw [cut_of_none found]
      rfl
  | case2 data message size found ih =>
      have within := (framing.bounds found).2
      rw [cut_of_some found, cut_of_some (framing.stable found more), List.drop_append_of_le_length within]
      unfold messages rest
      rw [ih]
      rfl

theorem messages_append (more : List α) : framing.messages (data ++ more) =
    framing.messages data ++ framing.messages (framing.rest data ++ more) :=
  congrArg Prod.fst (framing.cut_append data more)

theorem rest_append (more : List α) :
    framing.rest (data ++ more) = framing.rest (framing.rest data ++ more) := by
  have cut := congrArg Prod.snd (framing.cut_append data more)
  exact cut

theorem messages_nil : framing.messages [] = [] := by
  unfold messages
  cases found : framing.next [] with
  | none => rw [cut_of_none found]
  | some pair =>
      have := framing.bounds found
      rw [List.length_nil] at this
      omega

theorem rest_nil : framing.rest [] = [] :=
  List.suffix_nil.mp (framing.rest_suffix [])

/-- Bodies of less than 256 bytes, each behind a byte with its length. -/
def lengthPrefixed : Framing UInt8 (List UInt8) where
  next
    | [] => none
    | size :: data => if size.toNat ≤ data.length then some (data.take size.toNat, size.toNat + 1) else none
  bounds := by
    intro data message size found
    cases data with
    | nil => cases found
    | cons length data =>
        dsimp only at found
        split at found <;> cases found
        rw [List.length_cons]
        omega
  stable := by
    intro data message size found more
    cases data with
    | nil => cases found
    | cons length data =>
        dsimp only at found
        split at found <;> cases found
        rename_i within
        rw [List.cons_append]
        dsimp only
        rw [if_pos (by rw [List.length_append]; omega), List.take_append_of_le_length within]

end Framing
