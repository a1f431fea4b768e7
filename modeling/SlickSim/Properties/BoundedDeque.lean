import SlickSim.Lib.Along
import SlickSim.Utils.RingBuffer

/-!
# The ring buffer and a bounded deque

The buffer answers like a deque of at most its capacity as long as no push or emplace
would fill its last cell: these two keep one cell less than `try_push` and `try_emplace`.
-/

set_option autoImplicit false

namespace SlickSim

inductive RingCall (α : Type)
  | push (item : α)
  | emplace (item : α)
  | tryPush (item : α)
  | tryEmplace (item : α)
  | popFront
  | popBack

inductive RingReply (α : Type)
  | done
  | accepted (took : Bool)
  | popped (item : Option α)
  deriving DecidableEq

/-- The sequence a buffer of that capacity is meant to be. -/
def BoundedDeque.serve {α : Type} (capacity : Nat) (items : List α) : RingCall α → RingReply α × List α
  | .push item | .emplace item =>
      (.done, if items.length = capacity then items.tail ++ [item] else items ++ [item])
  | .tryPush item | .tryEmplace item =>
      (.accepted (items.length ≠ capacity), if items.length = capacity then items else items ++ [item])
  | .popFront => (.popped items.head?, items.tail)
  | .popBack => (.popped items.getLast?, items.dropLast)

namespace RingBuffer

variable {α : Type}

def serve (ring : RingBuffer α) : RingCall α → RingReply α × RingBuffer α
  | .push item => (.done, ring.push item)
  | .emplace item => (.done, ring.emplace item)
  | .tryPush item => ((ring.tryPush item).map .accepted id)
  | .tryEmplace item => ((ring.tryEmplace item).map .accepted id)
  | .popFront => (ring.popFront.map .popped id)
  | .popBack => (ring.popBack.map .popped id)

/-- What a caller sees of a buffer is that sequence. -/
structure Shows (ring : RingBuffer α) (items : List α) : Prop where
  bounded : items.length ≤ ring.capacity.toNat
  size : ring.size.toNat = items.length
  isEmpty : ring.isEmpty = items.isEmpty
  isFull : ring.isFull = decide (items.length = ring.capacity.toNat)
  get : ∀ index, ring.get index = items[index.toNat]?

theorem Stores.shows {ring : RingBuffer α} {items : List α} (stores : ring.Stores items) : ring.Shows items := by
  obtain ⟨first, stores⟩ := stores
  exact ⟨stores.fits, stores.size_toNat, stores.isEmpty_eq, decide_eq_decide.mpr stores.size_eq_iff, stores.get_eq⟩

/-- A push or emplace comes to at most `capacity - 2` items, or to the only item of a single cell. -/
def LeavesRoom (ring : RingBuffer α) : RingCall α → Prop
  | .push _ | .emplace _ =>
      ring.size.toNat + 1 < ring.capacity.toNat ∨ ring.capacity.toNat = 1 ∧ ring.size.toNat = 1
  | _ => True

instance (ring : RingBuffer α) (call : RingCall α) : Decidable (ring.LeavesRoom call) :=
  match call with
  | .push _ | .emplace _ => inferInstanceAs (Decidable (_ ∨ _))
  | .tryPush _ | .tryEmplace _ | .popFront | .popBack => isTrue trivial

section Serve

variable {ring : RingBuffer α} {items : List α}

theorem Stores.overwrite_room (stores : ring.Stores items) (item : α)
    (room : ring.LeavesRoom (.push item)) : (ring.overwrite item).Stores
      (if items.length = ring.capacity.toNat then items.tail ++ [item] else items ++ [item]) := by
  obtain ⟨first, stores⟩ := stores
  rw [LeavesRoom, stores.size_toNat] at room
  rcases room with below | ⟨single, full⟩
  · have kept := stores.overwrite item (by omega)
    rw [show items.length + 2 - ring.capacity.toNat = 0 by omega, List.drop_zero] at kept
    rwa [if_neg (by omega)]
  · rw [if_pos (full.trans single.symm), List.length_eq_zero_iff.mp (List.length_tail.trans (by omega))]
    exact stores.overwrite_single item single full

/-- Where a push leaves no room, the number of items afterwards is wrong. -/
theorem Stores.overwrite_crowded (stores : ring.Stores items) (item : α)
    (crowded : ¬ring.LeavesRoom (.push item)) : (ring.overwrite item).size.toNat ≠
      (if items.length = ring.capacity.toNat then items.tail ++ [item] else items ++ [item]).length := by
  obtain ⟨first, stores⟩ := stores
  have fits := stores.fits
  have positive := ring.capacity_pos
  rw [LeavesRoom, stores.size_toNat] at crowded
  by_cases full : items.length = ring.capacity.toNat
  · have several : ring.capacity.toNat ≠ 1 := by omega
    rw [stores.overwrite_full item several full, if_pos full, List.length_append, List.length_tail,
      List.length_singleton]
    omega
  · obtain ⟨next, kept⟩ := stores.overwrite item (by omega)
    rw [kept.size_toNat, if_neg full, List.length_drop, List.length_append, List.length_singleton]
    omega

/-- An operation that leaves room answers and acts as on the deque. -/
theorem Stores.serve (stores : ring.Stores items) (call : RingCall α) (room : ring.LeavesRoom call) :
    (ring.serve call).1 = (BoundedDeque.serve ring.capacity.toNat items call).1 ∧
      (ring.serve call).2.Stores (BoundedDeque.serve ring.capacity.toNat items call).2 := by
  cases call with
  | push item => exact ⟨rfl, stores.overwrite_room item room⟩
  | emplace item => exact ⟨rfl, stores.overwrite_room item room⟩
  | tryPush item =>
      obtain ⟨told, kept⟩ := stores.tryWrite item
      exact ⟨congrArg RingReply.accepted told, kept⟩
  | tryEmplace item =>
      obtain ⟨told, kept⟩ := stores.tryWrite item
      exact ⟨congrArg RingReply.accepted told, kept⟩
  | popFront =>
      obtain ⟨told, kept⟩ := stores.popFront
      exact ⟨congrArg RingReply.popped told, kept⟩
  | popBack =>
      obtain ⟨told, kept⟩ := stores.popBack
      exact ⟨congrArg RingReply.popped told, kept⟩

end Serve

/-! ## Runs -/

structure Trial (α : Type) where
  ring : RingBuffer α
  replies : List (RingReply α)
  items : List α
  expected : List (RingReply α)

namespace Trial

def start [Inhabited α] (capacity : UInt64) (powerOfTwo : ∃ exponent < 64, capacity.toNat = 2 ^ exponent) :
    Trial α :=
  { ring := empty capacity powerOfTwo, replies := [], items := [], expected := [] }

def step (trial : Trial α) (call : RingCall α) : Trial α :=
  let served := trial.ring.serve call
  let meant := BoundedDeque.serve trial.ring.capacity.toNat trial.items call
  { ring := served.2
    replies := trial.replies ++ [served.1]
    items := meant.2
    expected := trial.expected ++ [meant.1] }

/-- The buffer has answered like the deque and shows its items. -/
def Agrees (trial : Trial α) : Prop :=
  trial.replies = trial.expected ∧ trial.ring.Shows trial.items

def LeavesRoom (trial : Trial α) (call : RingCall α) : Prop :=
  trial.ring.LeavesRoom call

instance (trial : Trial α) (call : RingCall α) : Decidable (trial.LeavesRoom call) :=
  inferInstanceAs (Decidable (trial.ring.LeavesRoom call))

theorem step_stores {trial : Trial α} {call : RingCall α}
    (same : trial.replies = trial.expected ∧ trial.ring.Stores trial.items) (room : trial.LeavesRoom call) :
    (trial.step call).replies = (trial.step call).expected ∧ (trial.step call).ring.Stores (trial.step call).items := by
  obtain ⟨told, kept⟩ := same.2.serve call room
  exact ⟨by rw [step, same.1, told], kept⟩

theorem leavesRoom_of_agrees {trial : Trial α} {call : RingCall α} (stores : trial.ring.Stores trial.items)
    (agrees : (trial.step call).Agrees) : trial.LeavesRoom call := by
  cases call with
  | push item => exact not_not.mp fun crowded => stores.overwrite_crowded item crowded agrees.2.size
  | emplace item => exact not_not.mp fun crowded => stores.overwrite_crowded item crowded agrees.2.size
  | tryPush item => trivial
  | tryEmplace item => trivial
  | popFront => trivial
  | popBack => trivial

/-- A buffer is the bounded deque all along a run exactly when every push and emplace of the
run leaves room. -/
theorem agrees_iff_leavesRoom [Inhabited α] (capacity : UInt64)
    (powerOfTwo : ∃ exponent < 64, capacity.toNat = 2 ^ exponent) (calls : List (RingCall α)) :
    (∀ past, past <+: calls → (past.foldl step (start capacity powerOfTwo)).Agrees) ↔
      Along step LeavesRoom (start capacity powerOfTwo) calls := by
  refine @Along.every_iff _ _ step (fun _ _ => True) LeavesRoom
    (fun trial => trial.replies = trial.expected ∧ trial.ring.Stores trial.items) Agrees _ _ ?_ ?_ ?_ ?_
    ⟨rfl, empty_stores capacity powerOfTwo⟩
  · rintro trial ⟨same, stores⟩
    exact ⟨same, stores.shows⟩
  · rintro trial call - ⟨-, stores⟩ agrees
    exact leavesRoom_of_agrees stores agrees
  · rintro trial call - same room
    exact step_stores same room
  · exact Along.of_forall fun _ _ => trivial

/-- Four cells, never more than two items before a push. -/
theorem agrees_iff_leavesRoom_four :
    let calls : List (RingCall Nat) :=
      [.push 1, .emplace 2, .tryPush 3, .tryEmplace 4, .tryPush 5, .popFront, .popBack, .popBack, .push 6]
    ∀ past, past <+: calls → (past.foldl step (start 4 ⟨2, by decide, by decide⟩)).Agrees := by
  intro calls
  refine (agrees_iff_leavesRoom 4 ⟨2, by decide, by decide⟩ calls).mpr ?_
  exact ⟨by decide, by decide, trivial, trivial, trivial, trivial, trivial, trivial, by decide, trivial⟩

/-- Of two items pushed into two cells the second alone is there. -/
theorem not_agrees_two_pushes :
    ¬ ∀ (capacity : UInt64) (powerOfTwo : ∃ exponent < 64, capacity.toNat = 2 ^ exponent)
      (calls : List (RingCall Nat)), (calls.foldl step (start capacity powerOfTwo)).Agrees := by
  intro every
  have size := (every 2 ⟨1, by decide, by decide⟩ [.push 1, .push 2]).2.size
  exact absurd size (by decide)

end Trial

end RingBuffer

end SlickSim
