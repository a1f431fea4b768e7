import Mathlib.Algebra.Order.BigOperators.Group.List
import Mathlib.Algebra.Order.Ring.Int
import Mathlib.Data.Finset.Card

/-!
# Group membership of a multicast feed

`start`, `stop`, `mute` and `set_joined` of `md_feed/multicast_packet_feed.hpp`. The
state of the lines is kept in bit masks; `lineState` reads it back line by line, and the
operations act on each line for itself.
-/

set_option autoImplicit false

namespace SlickSim

abbrev FeedLine := Fin 32

def membershipRetryNs : UInt64 := 100000000

structure MulticastPacketFeed where
  muted : BitVec 32
  wantedLeft : BitVec 32
  left : BitVec 32
  failing : BitVec 32
  retryAtNs : FeedLine → UInt64
  started : Bool

def lineBit (line : FeedLine) : BitVec 32 :=
  1#32 <<< line.val

namespace MulticastPacketFeed

def initial : MulticastPacketFeed :=
  { muted := 0, wantedLeft := 0, left := 0, failing := 0, retryAtNs := fun _ => 0, started := false }

def start (feed : MulticastPacketFeed) : MulticastPacketFeed :=
  { feed with started := true, left := 0, failing := 0, retryAtNs := fun _ => 0 }

def stop (feed : MulticastPacketFeed) : MulticastPacketFeed :=
  { feed with started := false }

/-- `deliver` drops the packets of the line. -/
def isMuted (feed : MulticastPacketFeed) (line : FeedLine) : Bool :=
  feed.muted &&& lineBit line ≠ 0

def mute (feed : MulticastPacketFeed) (line : FeedLine) (muted : Bool) : MulticastPacketFeed :=
  { feed with muted := if muted then feed.muted ||| lineBit line else feed.muted &&& ~~~lineBit line }

/-- The first half of `set_joined`: a wish that is new. -/
def wish (feed : MulticastPacketFeed) (line : FeedLine) (joined : Bool) : MulticastPacketFeed :=
  if feed.wantedLeft &&& lineBit line ≠ (if joined then 0 else lineBit line) then
    let feed := { feed with wantedLeft := feed.wantedLeft ^^^ lineBit line }
    let feed := feed.mute line (!joined)
    { feed with
      failing := feed.failing &&& ~~~lineBit line
      retryAtNs := Function.update feed.retryAtNs line 0 }
  else feed

/-- `set_joined`, with what `change_membership` returns if it is called, and whether it is. -/
def setJoined (feed : MulticastPacketFeed) (line : FeedLine) (joined : Bool) (nowNs : UInt64) (error : Int) :
    Bool × MulticastPacketFeed :=
  let feed := feed.wish line joined
  if feed.left &&& lineBit line = (if joined then 0 else lineBit line) ∨ nowNs < feed.retryAtNs line then (false, feed)
  else if error ≠ 0 then
    (true, { feed with
      retryAtNs := Function.update feed.retryAtNs line (nowNs + membershipRetryNs)
      -- Logged when the line was not failing before.
      failing := if feed.failing &&& lineBit line = 0 then feed.failing ||| lineBit line else feed.failing })
  else
    (true, { feed with
      left := feed.left ^^^ lineBit line
      failing := feed.failing &&& ~~~lineBit line })

end MulticastPacketFeed

/-! ## One line -/

structure LineState where
  muted : Bool
  wantedLeft : Bool
  left : Bool
  failing : Bool
  retryAtNs : UInt64

namespace LineState

def start (line : LineState) : LineState :=
  { line with left := false, failing := false, retryAtNs := 0 }

def wish (line : LineState) (joined : Bool) : LineState :=
  if line.wantedLeft = !joined then line
  else { line with wantedLeft := !joined, muted := !joined, failing := false, retryAtNs := 0 }

def setJoined (line : LineState) (joined : Bool) (nowNs : UInt64) (error : Int) : Bool × LineState :=
  let line := line.wish joined
  if line.left = !joined ∨ nowNs < line.retryAtNs then (false, line)
  else if error ≠ 0 then (true, { line with retryAtNs := nowNs + membershipRetryNs, failing := true })
  else (true, { line with left := !joined, failing := false })

end LineState

namespace MulticastPacketFeed

/-- The line's share of the masks. -/
def lineState (feed : MulticastPacketFeed) (line : FeedLine) : LineState :=
  { muted := feed.muted.getLsbD line
    wantedLeft := feed.wantedLeft.getLsbD line
    left := feed.left.getLsbD line
    failing := feed.failing.getLsbD line
    retryAtNs := feed.retryAtNs line }

section Bits

variable (mask : BitVec 32) (line other : FeedLine)

theorem getLsbD_lineBit : (lineBit line).getLsbD other = decide (other = line) := by
  revert line other
  decide

theorem and_lineBit_eq_iff (joined : Bool) :
    mask &&& lineBit line = (if joined then 0 else lineBit line) ↔ mask.getLsbD line = !joined := by
  have whole : mask &&& lineBit line = if mask.getLsbD line then lineBit line else 0 := by
    apply BitVec.eq_of_getLsbD_eq
    intro index below
    have bit := getLsbD_lineBit line ⟨index, below⟩
    dsimp only at bit
    rw [BitVec.getLsbD_and, bit]
    by_cases same : (⟨index, below⟩ : FeedLine) = line
    · subst same
      cases mask.getLsbD index <;> simp [bit]
    · cases mask.getLsbD line.val <;> simp [bit, same]
  have nonzero : lineBit line ≠ 0#32 := by
    intro none
    have bit := getLsbD_lineBit line line
    rw [none] at bit
    simp at bit
  rw [whole]
  cases mask.getLsbD line.val <;> cases joined
  · exact iff_of_false nonzero.symm Bool.false_ne_true
  · exact iff_of_true rfl rfl
  · exact iff_of_true rfl rfl
  · exact iff_of_false nonzero Bool.noConfusion

theorem and_lineBit_eq_zero_iff : mask &&& lineBit line = 0 ↔ mask.getLsbD line = false :=
  and_lineBit_eq_iff mask line true

theorem getLsbD_set : (mask ||| lineBit line).getLsbD other = (mask.getLsbD other || decide (other = line)) := by
  rw [BitVec.getLsbD_or, getLsbD_lineBit]

theorem getLsbD_clear :
    (mask &&& ~~~lineBit line).getLsbD other = (mask.getLsbD other && !decide (other = line)) := by
  rw [BitVec.getLsbD_and, BitVec.getLsbD_not, getLsbD_lineBit, decide_eq_true other.isLt, Bool.true_and]

theorem getLsbD_flip :
    (mask ^^^ lineBit line).getLsbD other = (mask.getLsbD other ^^ decide (other = line)) := by
  rw [BitVec.getLsbD_xor, getLsbD_lineBit]

end Bits

/-! ## The operations line by line -/

section Lines

variable (feed : MulticastPacketFeed) (line other : FeedLine) (joined : Bool) (nowNs : UInt64) (error : Int)

theorem isMuted_eq : feed.isMuted line = (feed.lineState line).muted := by
  rw [isMuted, Bool.eq_iff_iff, decide_eq_true_iff, ne_eq, and_lineBit_eq_zero_iff, Bool.not_eq_false]
  rfl

theorem lineState_start : feed.start.lineState line = (feed.lineState line).start := by
  simp [start, lineState, LineState.start]

theorem lineState_wish : (feed.wish line joined).lineState line = (feed.lineState line).wish joined := by
  rw [wish, LineState.wish]
  by_cases same : feed.wantedLeft.getLsbD line = !joined
  · rw [if_neg (not_not.mpr ((and_lineBit_eq_iff _ _ _).mpr same))]
    exact (if_pos same).symm
  · rw [if_pos (mt (and_lineBit_eq_iff _ _ _).mp same)]
    refine Eq.trans ?_ (if_neg same).symm
    rw [Bool.eq_not, not_not] at same
    cases joined <;>
      simp only [lineState, mute, same, getLsbD_set, getLsbD_clear, getLsbD_flip, Function.update_self, decide_true,
        Bool.not_true, Bool.not_false, Bool.and_false, Bool.or_true, Bool.xor_true, if_true, Bool.false_eq_true, if_false]

theorem lineState_wish_other (apart : other ≠ line) :
    (feed.wish line joined).lineState other = feed.lineState other := by
  by_cases same : feed.wantedLeft &&& lineBit line = (if joined then 0 else lineBit line)
  · rw [wish, if_neg (not_not.mpr same)]
  · rw [wish, if_pos same]
    cases joined <;>
      simp only [lineState, mute, getLsbD_set, getLsbD_clear, getLsbD_flip, Function.update_of_ne apart, apart,
        decide_false, Bool.not_true, Bool.not_false, Bool.and_true, Bool.or_false, Bool.xor_false, if_true,
        Bool.false_eq_true, if_false]

/-- A call is what it is for its line. -/
theorem lineState_setJoined : ((feed.setJoined line joined nowNs error).1,
    (feed.setJoined line joined nowNs error).2.lineState line) = (feed.lineState line).setJoined joined nowNs error := by
  have wished := feed.lineState_wish line joined
  have met : (feed.wish line joined).left &&& lineBit line = (if joined then 0 else lineBit line) ∨
      nowNs < (feed.wish line joined).retryAtNs line ↔
        ((feed.lineState line).wish joined).left = !joined ∨ nowNs < ((feed.lineState line).wish joined).retryAtNs := by
    rw [and_lineBit_eq_iff, ← wished]
    rfl
  rw [setJoined, LineState.setJoined]
  by_cases settled : ((feed.lineState line).wish joined).left = !joined ∨
      nowNs < ((feed.lineState line).wish joined).retryAtNs
  · rw [if_pos (met.mpr settled), if_pos settled, ← wished]
  · rw [if_neg (mt met.mp settled), if_neg settled]
    by_cases failed : error ≠ 0
    · rw [if_pos failed, if_pos failed, ← wished]
      dsimp only [lineState]
      rw [Function.update_self]
      split
      case isTrue => rw [getLsbD_set, decide_eq_true rfl, Bool.or_true]
      case isFalse already => rw [Bool.eq_true_of_not_eq_false (mt (and_lineBit_eq_zero_iff _ _).mpr already)]
    · rw [if_neg failed, if_neg failed, ← wished]
      dsimp only [lineState]
      rw [getLsbD_flip, getLsbD_clear, decide_eq_true rfl, Bool.not_true, Bool.and_false, Bool.xor_true]
      have unmet := (not_or.mp settled).1
      rw [← wished, Bool.eq_not, not_not] at unmet
      exact congrArg (fun left => (true, LineState.mk _ _ left _ _)) (congrArg not unmet)

theorem lineState_setJoined_other (apart : other ≠ line) :
    (feed.setJoined line joined nowNs error).2.lineState other = feed.lineState other := by
  have wished := feed.lineState_wish_other line other joined apart
  rw [← wished, setJoined]
  by_cases settled : (feed.wish line joined).left &&& lineBit line = (if joined then 0 else lineBit line) ∨
      nowNs < (feed.wish line joined).retryAtNs line
  · rw [if_pos settled]
  · rw [if_neg settled]
    by_cases failed : error ≠ 0
    · rw [if_pos failed]
      dsimp only [lineState]
      rw [Function.update_of_ne apart]
      split
      · rw [getLsbD_set, decide_eq_false apart, Bool.or_false]
      · rfl
    · rw [if_neg failed]
      dsimp only [lineState]
      rw [getLsbD_flip, getLsbD_clear, decide_eq_false apart, Bool.xor_false, Bool.not_false, Bool.and_true]

end Lines

end MulticastPacketFeed

end SlickSim
