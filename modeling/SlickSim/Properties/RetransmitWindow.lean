import SlickSim.Gateway.RetransmitRing
import SlickSim.Lib.Along

/-!
# The window a session can send again

After claims of consecutive numbers a ring holds the last messages that fit it, each under
its own number. `written` is the history that this is told from: no slot stores it.
-/

set_option autoImplicit false

namespace SlickSim

inductive RingUse (messageCapacity : Nat)
  | claim (seq : UInt32) (encoding : Encoding messageCapacity)
  | clear

structure RetransmitSession (messageCapacity : Nat) where
  ring : RetransmitRing messageCapacity
  /-- The numbers claimed since the last clear, newest first, each with its slot as it was left. -/
  written : List (UInt32 × RetransmitSlot messageCapacity)
  /-- The last number claimed, zero before the first claim. -/
  last : UInt32

namespace RetransmitSession

open RetransmitRing

variable {messageCapacity capacity : Nat} {session : RetransmitSession messageCapacity} {seq first count : UInt32}
  {slot : RetransmitSlot messageCapacity}

def start (messageCapacity capacity : Nat) : RetransmitSession messageCapacity :=
  { ring := ofCapacity messageCapacity capacity, written := [], last := 0 }

def step (session : RetransmitSession messageCapacity) :
    RingUse messageCapacity → RetransmitSession messageCapacity
  | .claim seq encoding =>
      let ring := (session.ring.claim seq).encode seq encoding
      { ring, written := (seq, ring.slot seq) :: session.written, last := seq }
  | .clear => { session with ring := session.ring.clear, written := [] }

/-- A claim is of the next number. The first one, and the first after a clear, may be of any. -/
def Follows (session : RetransmitSession messageCapacity) : RingUse messageCapacity → Prop
  | .claim seq _ => seq ≠ 0 ∧ (session.written ≠ [] → seq.toNat = session.last.toNat + 1)
  | .clear => True

/-- What is found is what was written, as far back as the slots reach. -/
structure HoldsWindow (capacity : Nat) (session : RetransmitSession messageCapacity) : Prop where
  sized : session.ring.capacity = capacity
  reached : ∀ entry ∈ session.written, entry.1 ≠ 0 ∧ entry.1.toNat ≤ session.last.toNat
  found : ∀ seq slot, session.ring.find seq = some slot ↔
    (seq, slot) ∈ session.written ∧ session.last.toNat < seq.toNat + capacity

namespace HoldsWindow

theorem start (positive : 1 ≤ capacity) :
    HoldsWindow capacity (RetransmitSession.start messageCapacity capacity) where
  sized := (capacity_ofCapacity capacity).trans (max_eq_left positive)
  reached := nofun
  found := by
    intro seq slot
    refine iff_of_false ?_ nofun
    intro held
    cases (find_ofCapacity capacity seq).symm.trans held

theorem clear (holds : HoldsWindow capacity session) : HoldsWindow capacity (session.step .clear) where
  sized := capacity_clear.trans holds.sized
  reached := nofun
  found := by
    intro seq slot
    refine iff_of_false ?_ nofun
    intro held
    cases (find_clear seq).symm.trans held

/-- A claim takes the slot of the one message that goes out of reach. -/
theorem claim (holds : HoldsWindow capacity session) (positive : 1 ≤ capacity)
    (encoding : Encoding messageCapacity) (follows : session.Follows (.claim seq encoding)) :
    HoldsWindow capacity (session.step (.claim seq encoding)) := by
  obtain ⟨counted, next⟩ := follows
  have size := holds.sized
  have sized : 0 < session.ring.capacity := by omega
  have older : ∀ entry ∈ session.written, entry.1 ≠ 0 ∧ entry.1.toNat < seq.toNat := by
    intro entry inside
    obtain ⟨numbered, reach⟩ := holds.reached entry inside
    have follow := next (List.ne_nil_of_mem inside)
    exact ⟨numbered, by omega⟩
  refine ⟨?_, ?_, ?_⟩
  · rw [step, capacity_encode, capacity_claim, size]
  · intro entry inside
    rcases List.mem_cons.mp inside with rfl | earlier
    · exact ⟨counted, le_rfl⟩
    · exact ⟨(older entry earlier).1, (older entry earlier).2.le⟩
  · intro other slot
    simp only [step, List.mem_cons, Prod.mk.injEq]
    by_cases newest : other = seq
    · subst newest
      have once : (other, slot) ∉ session.written := fun inside => (older _ inside).2.false
      rw [find_claim_encode sized counted, Option.some.injEq, eq_comm]
      simp only [true_and, once, or_false, iff_self_and]
      omega
    · rw [or_iff_right fun named => newest named.1]
      by_cases same : session.ring.position seq = session.ring.position other
      · rw [find_overwritten sized same newest]
        refine iff_of_false (by rintro ⟨⟩) ?_
        rintro ⟨inside, reach⟩
        have below : other.toNat < seq.toNat := (older _ inside).2
        exact position_ne below (by omega) same.symm
      · rw [find_spared sized same, holds.found]
        refine and_congr_right fun inside => ?_
        have follow := next (List.ne_nil_of_mem inside)
        have spared : seq.toNat ≠ other.toNat + session.ring.capacity :=
          fun apart => same (position_eq_of_add apart).symm
        omega

theorem step (positive : 1 ≤ capacity) (session : RetransmitSession messageCapacity)
    (used : RingUse messageCapacity) (follows : session.Follows used) (holds : HoldsWindow capacity session) :
    HoldsWindow capacity (session.step used) := by
  cases used with
  | claim seq encoding => exact holds.claim positive encoding follows
  | clear => exact holds.clear

theorem within (holds : HoldsWindow capacity session) (found : (session.ring.find seq).isSome) :
    seq.toNat ≤ session.last.toNat ∧ session.last.toNat < seq.toNat + capacity := by
  obtain ⟨slot, found⟩ := Option.isSome_iff_exists.mp found
  obtain ⟨inside, reach⟩ := (holds.found seq slot).mp found
  exact ⟨(holds.reached _ inside).2, reach⟩

theorem count_le (holds : HoldsWindow capacity session) (positive : 1 ≤ capacity)
    (held : ∀ i < count, (session.ring.find (first + i)).isSome) : count.toNat ≤ capacity := by
  by_contra more
  have unwrapped := within_sequence held
  obtain ⟨lowInside, low⟩ := toNat_offset first (show 0 < count.toNat by omega)
  obtain ⟨highInside, high⟩ := toNat_offset first (show capacity < count.toNat by omega)
  have lowest := holds.within (held _ lowInside)
  have highest := holds.within (held _ highInside)
  omega

end HoldsWindow

theorem holdsWindow (positive : 1 ≤ capacity) {uses : List (RingUse messageCapacity)}
    (consecutive : Along step Follows (start messageCapacity capacity) uses) :
    HoldsWindow capacity (uses.foldl step (start messageCapacity capacity)) :=
  Along.run (fun session used follows _ => HoldsWindow.step positive session used follows)
    consecutive consecutive (HoldsWindow.start positive)

end RetransmitSession

namespace RetransmitRing

open RetransmitSession

variable {messageCapacity capacity : Nat}

end RetransmitRing

end SlickSim
