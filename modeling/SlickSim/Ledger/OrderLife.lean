import SlickSim.Ledger.Frame

/-!
# The life of one order

A run of the ledger machine seen from one order number: the order, how far it has
got, and the reports that carry its number. Every effect is a step in the life of at
most one order, so what reports say of an order is proved on `LifeStep` alone.
-/

set_option autoImplicit false

namespace SlickSim

/-- How far an order that has not ended has got. -/
inductive Stage where
  | pending
  | working
  | done
  | resting
  | amending
  | amended
  | emptied
  | closing
  | cancelling
deriving DecidableEq, Repr

def Stage.replaced (filled : Bool) : Stage :=
  if filled then emptied else amended

inductive Life where
  | unborn
  | alive (stage : Stage) (order : Order)
  /-- Refused by self-match prevention before it was acknowledged. -/
  | turnedAway
  | gone

/-- A permit that asks about one order and the reports on it. -/
structure Terms where
  accept : List OrderResponse → OrderResponse → Order → Prop
  reject : (Name → Option Nat) → Name → Prop
  refuse : Prop
  startAmend : Order → Prop
  abortAmend : Order → Prop
  replace : OrderResponse → Order → Int → Int → Prop
  amendRests : List OrderResponse → Order → Prop
  cancel : Order → Prop

def Terms.all : Terms where
  accept := fun _ _ _ => True
  reject := fun _ _ => True
  refuse := True
  startAmend := fun _ => True
  abortAmend := fun _ => True
  replace := fun _ _ _ _ => True
  amendRests := fun _ _ => True
  cancel := fun _ => True

/-- One step in the life of an order, with the reports that carry its number. -/
inductive LifeStep (terms : Terms) : Life × List OrderResponse → Life × List OrderResponse → Prop
  | accept {past : List OrderResponse} {slot : OrderResponse} {order : Order} {requestTime : Nat}
      (named : order.orderId.isEmpty = false) (whole : order.leavesQuantity = order.quantity)
      (unfilled : order.cumQuantity = 0) (unpriced : order.avgFillPrice = 0)
      (permitted : terms.accept past slot order) :
      LifeStep terms (.unborn, []) (.alive .pending order, [slot.writeNewPending order requestTime])
  | touch {stage : Stage} {order : Order} {reports : List OrderResponse} {status : OrderStatus}
      {lastUpdateTime requestTag : Nat} :
      LifeStep terms (.alive stage order, reports)
        (.alive stage (order.touch status lastUpdateTime requestTag), reports)
  | ack {order : Order} {reports : List OrderResponse} {slot : OrderResponse} {requestTime : Nat} :
      LifeStep terms (.alive .pending order, reports)
        (.alive .working order, reports ++ [slot.writeAck order requestTime])
  | refuse {order : Order} {reports : List OrderResponse} (permitted : terms.refuse) :
      LifeStep terms (.alive .pending order, reports) (.turnedAway, reports)
  | aggress {stage : Stage} {order : Order} {reports : List OrderResponse} {slot : OrderResponse}
      {price qty : Int} {timestamp : Nat} (matching : stage = .working ∨ stage = .amended)
      (positive : 0 < qty) (within : qty ≤ order.leavesQuantity) :
      LifeStep terms (.alive stage order, reports)
        (.alive stage (order.execute price qty timestamp),
          reports ++ [slot.writeExecution (order.execute price qty timestamp) true])
  | fillPartly {order : Order} {reports : List OrderResponse} {slot : OrderResponse} {qty : Int}
      {timestamp : Nat} (positive : 0 < qty) (within : qty < order.leavesQuantity) :
      LifeStep terms (.alive .resting order, reports)
        (.alive .resting (order.execute order.price qty timestamp),
          reports ++ [slot.writeExecution (order.execute order.price qty timestamp) false])
  | fillFully {order : Order} {reports : List OrderResponse} {slot : OrderResponse} {timestamp : Nat} :
      LifeStep terms (.alive .resting order, reports) (.gone, reports ++
        [slot.writeExecution (order.execute order.price order.leavesQuantity timestamp) false])
  | cancelResting {stage : Stage} {order : Order} {reports : List OrderResponse} {slot : OrderResponse}
      {requestTime : Nat} (rests : stage = .resting ∨ stage = .cancelling) :
      LifeStep terms (.alive stage order, reports)
        (.gone, reports ++ [slot.writeCancel order.withoutLeaves requestTime])
  | cancelHand {order : Order} {reports : List OrderResponse} {slot : OrderResponse} {requestTime : Nat}
      (unrestable : order.restsRemainder = false ∨ order.leavesQuantity = 0)
      (unfinished : 0 < order.leavesQuantity ∨ order.cumQuantity = 0) :
      LifeStep terms (.alive .working order, reports)
        (.alive .done order, reports ++ [slot.writeCancel order requestTime])
  | dropDone {order : Order} {reports : List OrderResponse} :
      LifeStep terms (.alive .done order, reports) (.gone, reports)
  | dropFilled {order : Order} {reports : List OrderResponse} (filled : order.leavesQuantity ≤ 0)
      (traded : order.leavesQuantity = 0 → 0 < order.cumQuantity) :
      LifeStep terms (.alive .working order, reports) (.gone, reports)
  | rest {order : Order} {reports : List OrderResponse} {priority : Nat}
      (left : 0 < order.leavesQuantity) :
      LifeStep terms (.alive .working order, reports)
        (.alive .resting (order.withPriority priority), reports)
  | startAmend {order : Order} {reports : List OrderResponse} {slot : OrderResponse}
      {requestTime now requestTag : Nat} (permitted : terms.startAmend order) :
      LifeStep terms (.alive .resting order, reports)
        (.alive .amending (order.touch .pendingReplace now requestTag),
          reports ++ [slot.writeReplacePending (order.touch .pendingReplace now requestTag) requestTime])
  | abortAmend {order : Order} {reports : List OrderResponse} (permitted : terms.abortAmend order) :
      LifeStep terms (.alive .amending order, reports) (.alive .resting order, reports)
  | replace {order : Order} {reports : List OrderResponse} {slot : OrderResponse} {requestTime : Nat}
      {newPrice newQty : Int} (permitted : terms.replace slot order newPrice newQty) :
      LifeStep terms (.alive .amending order, reports)
        (.alive (.replaced (decide (newQty ≤ order.cumQuantity))) (order.replace newPrice newQty),
          reports ++ [slot.writeModify (order.replace newPrice newQty) newPrice newQty requestTime])
  | cancelAmended {stage : Stage} {order : Order} {reports : List OrderResponse} {slot : OrderResponse}
      {requestTime : Nat} (unrestable : stage = .emptied ∨ stage = .amended ∧
        0 < order.leavesQuantity ∧ order.price = nullPrice) :
      LifeStep terms (.alive stage order, reports)
        (.alive .closing order, reports ++ [slot.writeCancel order requestTime])
  | amendRests {stage : Stage} {order : Order} {reports : List OrderResponse} {priority : Nat}
      (held : stage = .amended ∨ stage = .closing) (left : 0 < order.leavesQuantity)
      (permitted : terms.amendRests reports order) :
      LifeStep terms (.alive stage order, reports)
        (.alive .resting (order.withPriority priority), reports)
  | amendGone {stage : Stage} {order : Order} {reports : List OrderResponse}
      (held : stage = .amended ∨ stage = .closing) (filled : order.leavesQuantity = 0) :
      LifeStep terms (.alive stage order, reports) (.gone, reports)
  | startCancel {order : Order} {reports : List OrderResponse} {slot : OrderResponse}
      {requestTime requestTag : Nat} (permitted : terms.cancel order) :
      LifeStep terms (.alive .resting order, reports)
        (.alive .cancelling (order.touch .pendingCancel order.lastUpdateTime requestTag),
          reports ++ [slot.writeCancelPending
            (order.touch .pendingCancel order.lastUpdateTime requestTag) requestTime])

def Hand.held : Hand → Option (Stage × Nat)
  | .pending ref => some (.pending, ref)
  | .working ref => some (.working, ref)
  | .done ref => some (.done, ref)
  | .amending ref => some (.amending, ref)
  | .amended ref => some (.amended, ref)
  | .emptied ref => some (.emptied, ref)
  | .closing ref => some (.closing, ref)
  | .cancelling ref => some (.cancelling, ref)
  | .none | .refused _ => Option.none

def Hand.order : Hand → Option Nat
  | .refused ref => some ref
  | hand => hand.held.map Prod.snd

namespace Ledger

/-- The reports that carry an order number, oldest first. -/
def reports (ledger : Ledger) (id : Nat) : List OrderResponse :=
  ledger.responses.filter fun response => decide (response.orderNum = id)

/-- The pooled order is at this stage of its life. -/
def AtStage (ledger : Ledger) (hand : Hand) (ref : Nat) (stage : Stage) : Prop :=
  hand.held = some (stage, ref) ∨ stage = .resting ∧ ledger.Registered ref ∧ hand.resting ≠ some ref

/-- No order of this number is in the book or in hand. -/
def Absent (ledger : Ledger) (hand : Hand) (id : Nat) : Prop :=
  ledger.owner id = none ∧ ∀ ref, hand.fresh = some ref → (ledger.heap ref).id ≠ id

/-- A pending report on an order number, under a client order id. -/
def ReportsPending (ledger : Ledger) (id : Nat) (name : Name) : Prop :=
  ∃ pending ∈ ledger.responses, pending.orderNum = id ∧ pending.orderStatus = .pendingNew ∧
    pending.clientOrderId = name

/-- The order was reported pending, then rejected under no number. -/
def ReportsTurnedAway (responses : List OrderResponse) (id : Nat) : Prop :=
  ∃ pending reject, [pending, reject].Sublist responses ∧ pending.orderNum = id ∧
    pending.orderStatus = .pendingNew ∧ reject.orderNum = 0 ∧ reject.execType = .rejected ∧
    reject.rejectReason = .smp ∧ reject.clientOrderId = pending.clientOrderId

/-- What the ledger shows of the life behind an order number. -/
def Lives (ledger : Ledger) (hand : Hand) (id : Nat) : Life → Prop
  | .unborn => ledger.reports id = []
  | .alive stage order => ∃ ref, ledger.heap ref = order ∧ order.id = id ∧
      ledger.AtStage hand ref stage ∧
      (stage = .pending → ledger.ReportsPending id order.clientOrderId)
  | .turnedAway => ledger.reports id ≠ [] ∧ ledger.Absent hand id ∧
      (ReportsTurnedAway ledger.responses id ∨ ∃ ref, hand = .refused ref ∧ (ledger.heap ref).id = id ∧
        ledger.ReportsPending id (ledger.heap ref).clientOrderId)
  | .gone => ledger.reports id ≠ [] ∧ ledger.Absent hand id

end Ledger

def Terms.permit (terms : Terms) (env : Environment) : Permit where
  accept := fun ledger order =>
    terms.accept ledger.responses (env.slot ledger.responses.length) order
  reject := fun ledger name => terms.reject ledger.byOrder name
  refuse := fun _ _ => terms.refuse
  startAmend := fun ledger ref => terms.startAmend (ledger.heap ref)
  abortAmend := fun ledger ref => terms.abortAmend (ledger.heap ref)
  replace := fun ledger ref newPrice newQty =>
    terms.replace (env.slot ledger.responses.length) (ledger.heap ref) newPrice newQty
  amendRests := fun ledger ref => terms.amendRests (ledger.reports (ledger.heap ref).id) (ledger.heap ref)
  cancel := fun ledger ref => terms.cancel (ledger.heap ref)
  move := fun _ _ => True
  join := fun _ _ => True
  arrive := fun _ _ => True

/-! ## What a ledger shows determines the life -/

namespace Hand

variable {hand : Hand} {ref : Nat} {stage : Stage}

theorem order_of_held (held : hand.held = some (stage, ref)) : hand.order = some ref := by
  cases hand <;> cases held <;> rfl

theorem order_of_fresh (held : hand.fresh = some ref) : hand.order = some ref := by
  cases hand <;> cases held <;> rfl

theorem order_of_resting (held : hand.resting = some ref) : hand.order = some ref := by
  cases hand <;> cases held <;> rfl

theorem held_cases (held : hand.held = some (stage, ref)) :
    hand.fresh = some ref ∨ hand.resting = some ref := by
  cases hand <;> cases held <;> simp [fresh, resting]

end Hand

namespace Ledger

variable {ledger : Ledger} {env : Environment} {hand : Hand} {ref id : Nat} {life : Life} {stage : Stage}

theorem mem_reports {response : OrderResponse} :
    response ∈ ledger.reports id ↔ response ∈ ledger.responses ∧ response.orderNum = id := by
  unfold reports
  rw [List.mem_filter, decide_eq_true_eq]

theorem owned_iff_reports : ledger.Owned id ↔ id ≠ 0 ∧ ledger.reports id ≠ [] := by
  unfold Owned
  refine and_congr_right fun _ => ⟨?_, ?_⟩
  · rintro ⟨response, member, same⟩
    exact List.ne_nil_of_mem (mem_reports.mpr ⟨member, same⟩)
  · intro some
    obtain ⟨response, member⟩ := List.exists_mem_of_ne_nil _ some
    exact ⟨response, mem_reports.mp member⟩

theorem reports_append_self {after : Ledger} {response : OrderResponse}
    (published : after.responses = ledger.responses ++ [response]) (same : response.orderNum = id) :
    after.reports id = ledger.reports id ++ [response] := by
  unfold reports
  rw [published, List.filter_append, List.filter_cons_of_pos (by simp [same]), List.filter_nil]

theorem reports_append_other {after : Ledger} {response : OrderResponse}
    (published : after.responses = ledger.responses ++ [response]) (other : response.orderNum ≠ id) :
    after.reports id = ledger.reports id := by
  unfold reports
  rw [published, List.filter_append, List.filter_cons_of_neg (by simp [other]), List.filter_nil,
    List.append_nil]

theorem Lives.of_registered (lives : ledger.Lives hand (ledger.heap ref).id life)
    (inv : ledger.Represents hand) (inside : ledger.Registered ref) (apart : hand.resting ≠ some ref) :
    life = .alive .resting (ledger.heap ref) := by
  cases life with
  | unborn =>
      have owned := inv.indexed.registered_owned inside
      exact absurd lives (owned_iff_reports.mp owned).2
  | alive stage order =>
      obtain ⟨other, rfl, sameId, atStage, -⟩ := lives
      have same : ∀ {ref'}, (ledger.heap ref').id = (ledger.heap ref).id → ledger.Registered ref' →
          ref' = ref := by
        intro ref' sameId registered
        rw [Registered, sameId, show ledger.owner (ledger.heap ref).id = some ref from inside] at registered
        exact (Option.some.inj registered).symm
      rcases atStage with held | ⟨rfl, registered, -⟩
      · rcases Hand.held_cases held with fresh | resting
        · have nothing := inv.indexed.fresh_unregistered fresh
          rw [sameId, show ledger.owner (ledger.heap ref).id = some ref from inside] at nothing
          cases nothing
        · obtain rfl := same sameId (inv.indexed.resting_registered resting)
          exact absurd resting apart
      · obtain rfl := same sameId registered
        rfl
  | turnedAway =>
      have nothing := lives.2.1.1
      rw [show ledger.owner (ledger.heap ref).id = some ref from inside] at nothing
      cases nothing
  | gone =>
      have nothing := lives.2.1
      rw [show ledger.owner (ledger.heap ref).id = some ref from inside] at nothing
      cases nothing

/-- The order in hand is at the stage the hand says. -/
theorem Lives.of_held (lives : ledger.Lives hand (ledger.heap ref).id life)
    (inv : ledger.Represents hand) (held : hand.held = some (stage, ref)) :
    life = .alive stage (ledger.heap ref) := by
  have owned : ledger.Owned (ledger.heap ref).id := by
    rcases Hand.held_cases held with fresh | resting
    · exact inv.indexed.fresh_owned fresh
    · exact inv.indexed.registered_owned (inv.indexed.resting_registered resting)
  have present : ¬ ledger.Absent hand (ledger.heap ref).id := by
    rintro ⟨nothing, noneFresh⟩
    rcases Hand.held_cases held with fresh | resting
    · exact noneFresh ref fresh rfl
    · have inside := inv.indexed.resting_registered resting
      rw [Registered, nothing] at inside
      cases inside
  cases life with
  | unborn => exact absurd lives (owned_iff_reports.mp owned).2
  | alive stage' order =>
      obtain ⟨other, rfl, sameId, atStage, -⟩ := lives
      rcases atStage with held' | ⟨rfl, registered, apart⟩
      · rw [held] at held'
        cases held'
        rfl
      · rcases Hand.held_cases held with fresh | resting
        · have nothing := inv.indexed.fresh_unregistered fresh
          rw [← sameId, show ledger.owner (ledger.heap other).id = some other from registered] at nothing
          cases nothing
        · have inside := inv.indexed.resting_registered resting
          rw [Registered, ← sameId,
            show ledger.owner (ledger.heap other).id = some other from registered] at inside
          rw [← Option.some.inj inside] at resting
          exact absurd resting apart
  | turnedAway => exact absurd lives.2.1 present
  | gone => exact absurd lives.2 present

/-! ## Steps that concern another order -/

structure Keeps (id : Nat) (before after : Hand × Ledger) : Prop where
  reports : after.2.reports id = before.2.reports id
  published : before.2.responses.Sublist after.2.responses
  owner : after.2.owner id = before.2.owner id
  heap : ∀ ref, before.2.Registered ref ∨ before.1.order = some ref →
    (before.2.heap ref).id = id ∨ (after.2.heap ref).id = id → after.2.heap ref = before.2.heap ref
  hand : ∀ ref, before.1.order = some ref → (before.2.heap ref).id = id → after.1 = before.1
  nextHand : ∀ ref, after.1.order = some ref → (after.2.heap ref).id = id → after.1 = before.1

theorem ReportsPending.mono {after : Ledger} {name : Name} (pending : ledger.ReportsPending id name)
    (published : ledger.responses.Sublist after.responses) : after.ReportsPending id name := by
  obtain ⟨report, member, facts⟩ := pending
  exact ⟨report, published.subset member, facts⟩

theorem ReportsTurnedAway.mono {before after : List OrderResponse} (told : ReportsTurnedAway before id)
    (published : before.Sublist after) : ReportsTurnedAway after id := by
  obtain ⟨pending, reject, inside, facts⟩ := told
  exact ⟨pending, reject, inside.trans published, facts⟩

theorem Keeps.absent {before after : Hand × Ledger} (keeps : Keeps id before after)
    (absent : before.2.Absent before.1 id) : after.2.Absent after.1 id := by
  obtain ⟨nothing, noneFresh⟩ := absent
  refine ⟨keeps.owner.trans nothing, ?_⟩
  intro ref fresh sameId
  have sameHand := keeps.nextHand ref (Hand.order_of_fresh fresh) sameId
  rw [sameHand] at fresh
  have sameHeap := keeps.heap ref (.inr (Hand.order_of_fresh fresh)) (.inr sameId)
  rw [sameHeap] at sameId
  exact noneFresh ref fresh sameId

theorem Lives.keeps {before after : Hand × Ledger} (lives : before.2.Lives before.1 id life)
    (keeps : Keeps id before after) : after.2.Lives after.1 id life := by
  cases life with
  | unborn => exact keeps.reports.trans lives
  | alive stage order =>
      obtain ⟨ref, rfl, sameId, atStage, pending⟩ := lives
      have sameHeap : after.2.heap ref = before.2.heap ref := by
        apply keeps.heap ref _ (.inl sameId)
        rcases atStage with held | ⟨-, registered, -⟩
        · exact .inr (Hand.order_of_held held)
        · exact .inl registered
      refine ⟨ref, sameHeap, sameId, ?_, fun isPending => (pending isPending).mono keeps.published⟩
      rcases atStage with held | ⟨isResting, registered, apart⟩
      · rw [keeps.hand ref (Hand.order_of_held held) sameId]
        exact .inl held
      · refine .inr ⟨isResting, ?_, ?_⟩
        · rw [Registered, sameHeap, sameId, keeps.owner, ← sameId]
          exact registered
        · intro resting
          rw [keeps.nextHand ref (Hand.order_of_resting resting) (by rw [sameHeap]; exact sameId)] at resting
          exact apart resting
  | turnedAway =>
      obtain ⟨reported, absent, told⟩ := lives
      refine ⟨keeps.reports ▸ reported, keeps.absent absent, ?_⟩
      rcases told with told | ⟨ref, isHand, sameId, pending⟩
      · exact .inl (told.mono keeps.published)
      · have held : before.1.order = some ref := by rw [isHand]; rfl
        have sameHeap := keeps.heap ref (.inr held) (.inl sameId)
        refine .inr ⟨ref, (keeps.hand ref held sameId).trans isHand, by rw [sameHeap]; exact sameId, ?_⟩
        rw [sameHeap]
        exact pending.mono keeps.published
  | gone =>
      obtain ⟨reported, absent⟩ := lives
      exact ⟨keeps.reports ▸ reported, keeps.absent absent⟩

/-- Nothing but entries, totals, joins or counters changes. -/
theorem Keeps.quiet {after : Ledger} (responses : after.responses = ledger.responses)
    (owner : after.owner = ledger.owner) (heap : after.heap = ledger.heap) :
    Keeps id (hand, ledger) (hand, after) where
  reports := by
    unfold Ledger.reports
    rw [responses]
  published := by rw [responses]
  owner := by rw [owner]
  heap := fun _ _ _ => congrFun heap _
  hand := fun _ _ _ => rfl
  nextHand := fun _ _ _ => rfl

theorem Keeps.other {hand' : Hand} {after : Ledger} (ref : Nat)
    (different : ledger.Registered ref ∨ hand.order = some ref → (ledger.heap ref).id ≠ id)
    (different' : (after.heap ref).id ≠ id) (others : ∀ other, other ≠ ref → after.heap other = ledger.heap other)
    (owner : after.owner id = ledger.owner id) (reports : after.reports id = ledger.reports id)
    (published : ledger.responses.Sublist after.responses)
    (hands : hand' = hand ∨ (∀ other, hand.order = some other → other = ref) ∧
      ∀ other, hand'.order = some other → other = ref) :
    Keeps id (hand, ledger) (hand', after) where
  reports := reports
  published := published
  owner := owner
  heap := by
    intro other living sameId
    by_cases same : other = ref
    · subst same
      rcases sameId with sameId | sameId
      · exact absurd sameId (different living)
      · exact absurd sameId different'
    · exact others other same
  hand := by
    intro other held sameId
    rcases hands with same | ⟨mine, -⟩
    · exact same
    · obtain rfl := mine other held
      exact absurd sameId (different (.inr held))
  nextHand := by
    intro other held sameId
    rcases hands with same | ⟨-, mine⟩
    · exact same
    · obtain rfl := mine other held
      exact absurd sameId different'

end Ledger

end SlickSim
