import SlickSim.Lib.Along
import SlickSim.Venues.CoinbaseWsOrderGateway

/-!
# Where order responses go

A user is served by one socket, the first that subscribed as that user. The map of
clients is right as long as a socket that is filed keeps its user, and a socket that
closes leaves no other socket of its user behind.
-/

set_option autoImplicit false

namespace SlickSim

def PerSocketData.speaksFor (data : PerSocketData) : Option UserId :=
  if data.authenticated then some data.userId else none

namespace CoinbaseWsOrderGateway

variable {gateway after : CoinbaseWsOrderGateway} {ws other pongTimeout now : Nat} {user filed : UserId}
  {data : PerSocketData}

/-- The user an open socket last subscribed as. -/
def speaksFor (gateway : CoinbaseWsOrderGateway) (ws : Nat) : Option UserId :=
  (gateway.sockets.lookup ws).bind PerSocketData.speaksFor

/-- Every socket that is filed is open and speaks for the user it is filed under, every user
someone speaks for is filed, and no closed socket has been used. -/
structure Routed (gateway : CoinbaseWsOrderGateway) : Prop where
  filed : ∀ user ws, gateway.clients.lookup user = some ws → gateway.speaksFor ws = some user
  present : ∀ ws user, gateway.speaksFor ws = some user → user ∈ gateway.clients
  live : gateway.touchedStale = false

/-- Whether a socket can close while it speaks for a user. An empty user id is never erased
from the map, so a socket filed under it stays there. -/
def DepartsAs (gateway : CoinbaseWsOrderGateway) (ws : Nat) (user : UserId) : Prop :=
  if user = [] then ∃ other, other ≠ ws ∧ gateway.clients.lookup [] = some other
  else ∀ other, other ≠ ws → gateway.speaksFor other ≠ some user

/-- A subscription closes its socket if it names no channel, or if the orders or the name of
its user cannot be written. -/
def Answers (gateway : CoinbaseWsOrderGateway) (user : UserId) : Option UserChannel → Prop
  | none => False
  | some .user => (∀ order ∈ gateway.snapshot user, order.Dumps) ∧ IsUtf8 user
  | some .heartbeats | some .futuresBalanceSummary | some .unsupported => True

instance (gateway : CoinbaseWsOrderGateway) (user : UserId) (channel : Option UserChannel) :
    Decidable (gateway.Answers user channel) :=
  match channel with
  | none => isFalse id
  | some .user => inferInstanceAs (Decidable (_ ∧ _))
  | some .heartbeats | some .futuresBalanceSummary | some .unsupported => isTrue trivial

/-- The events that keep responses routed. -/
def Orderly (pongTimeout : Nat) (gateway : CoinbaseWsOrderGateway) : GatewayEvent → Prop
  | .message ws (.subscribe none _) | .close ws =>
      ∀ user, gateway.speaksFor ws = some user → gateway.DepartsAs ws user
  | .message ws (.subscribe (some sub) channel) =>
      (∀ filed, gateway.clients.lookup filed = some ws → filed = userOfSubject sub) ∧
        (¬ gateway.Answers (userOfSubject sub) channel → gateway.DepartsAs ws (userOfSubject sub))
  | .checkHeartbeats now _ =>
      ∀ user ws data, gateway.clients.lookup user = some ws → gateway.sockets.lookup ws = some data →
        TimedOut pongTimeout now data → ∀ other, other ≠ ws → gateway.speaksFor other ≠ some user
  | _ => True

/-- A socket that has not subscribed has no user. -/
def Known (gateway : CoinbaseWsOrderGateway) : Prop :=
  ∀ ws data, gateway.sockets.lookup ws = some data → data.authenticated = false → data.userId = []

theorem Answers.congr (orders : after.orders = gateway.orders) : after.Answers = gateway.Answers := by
  funext user channel
  rcases channel with _ | channel
  · rfl
  · cases channel with
    | user =>
        unfold Answers snapshot
        rw [orders]
    | heartbeats | futuresBalanceSummary | unsupported => rfl

theorem whileRunning_eq (running : gateway.terminated = false)
    (handler : CoinbaseWsOrderGateway → CoinbaseWsOrderGateway) : gateway.whileRunning handler = handler gateway :=
  if_neg (by rw [running]; rintro ⟨⟩)

theorem routed_congr (clients : after.clients = gateway.clients)
    (speaks : ∀ ws, after.speaksFor ws = gateway.speaksFor ws)
    (live : after.touchedStale = gateway.touchedStale) : after.Routed ↔ gateway.Routed := by
  constructor
  · rintro ⟨filed, present, untouched⟩
    rw [clients] at filed present
    refine ⟨fun user ws isFiled => ?_, fun ws user speaksAs => ?_, live.symm.trans untouched⟩
    · exact (speaks ws).symm.trans (filed user ws isFiled)
    · exact present ws user ((speaks ws).trans speaksAs)
  · rintro ⟨filed, present, untouched⟩
    rw [← clients] at filed present
    refine ⟨fun user ws isFiled => ?_, fun ws user speaksAs => ?_, live.trans untouched⟩
    · exact (speaks ws).trans (filed user ws isFiled)
    · exact present ws user ((speaks ws).symm.trans speaksAs)

theorem lookup_of_mem (isOpen : ws ∈ gateway.sockets) : ∃ data, gateway.sockets.lookup ws = some data :=
  Option.isSome_iff_exists.mp (AList.lookup_isSome.mpr isOpen)

theorem mem_of_speaksFor (speaks : gateway.speaksFor ws = some user) : ws ∈ gateway.sockets := by
  obtain ⟨data, isOpen, -⟩ := Option.bind_eq_some_iff.mp speaks
  rw [← AList.lookup_isSome, isOpen]
  rfl

/-! ## Frames -/

def standing (data : PerSocketData) : Bool × UserId × Nat :=
  (data.authenticated, data.userId, data.lastPong)

/-- Nothing changes but what is sent, sequence numbers and heartbeat subscriptions. -/
structure Same (before after : CoinbaseWsOrderGateway) : Prop where
  clients : after.clients = before.clients
  sockets : ∀ ws, (after.sockets.lookup ws).map standing = (before.sockets.lookup ws).map standing
  live : after.touchedStale = before.touchedStale

namespace Same

variable {first second third : CoinbaseWsOrderGateway}

theorem refl (gateway : CoinbaseWsOrderGateway) : gateway.Same gateway :=
  ⟨rfl, fun _ => rfl, rfl⟩

theorem trans (left : first.Same second) (right : second.Same third) : first.Same third where
  clients := right.clients.trans left.clients
  sockets := fun ws => (right.sockets ws).trans (left.sockets ws)
  live := right.live.trans left.live

theorem speaksFor (same : first.Same second) (ws : Nat) : second.speaksFor ws = first.speaksFor ws := by
  have speaks : ∀ found : Option PerSocketData, found.bind PerSocketData.speaksFor =
      (found.map standing).bind fun facts => if facts.1 then some facts.2.1 else none := by
    intro found
    cases found <;> rfl
  unfold CoinbaseWsOrderGateway.speaksFor
  rw [speaks, speaks, same.sockets ws]

theorem found (same : first.Same second) (isOpen : second.sockets.lookup ws = some data) :
    ∃ before, first.sockets.lookup ws = some before ∧ standing before = standing data := by
  have here := same.sockets ws
  rw [isOpen] at here
  obtain ⟨before, isFound, facts⟩ := Option.map_eq_some_iff.mp here.symm
  exact ⟨before, isFound, facts⟩

theorem opened (same : first.Same second) : ws ∈ second.sockets ↔ ws ∈ first.sockets := by
  rw [← AList.lookup_isSome, ← AList.lookup_isSome, ← Option.isSome_map, same.sockets ws, Option.isSome_map]

theorem known (same : first.Same second) (known : first.Known) : second.Known := by
  intro ws data isOpen silent
  obtain ⟨before, isFound, facts⟩ := same.found isOpen
  obtain ⟨flag, userId, -⟩ : before.authenticated = data.authenticated ∧ before.userId = data.userId ∧
      before.lastPong = data.lastPong := by
    simpa [standing] using facts
  rw [← userId]
  exact known ws before isFound (flag.trans silent)

theorem routed_iff (same : first.Same second) : second.Routed ↔ first.Routed :=
  routed_congr same.clients same.speaksFor same.live

theorem insert {next : PerSocketData} {frames : List (Nat × UserChannelFrame)}
    (isOpen : gateway.sockets.lookup ws = some data) (facts : standing next = standing data) :
    gateway.Same { gateway with sockets := gateway.sockets.insert ws next, sent := frames } where
  clients := rfl
  sockets := by
    intro other
    by_cases same : other = ws
    · subst same
      rw [AList.lookup_insert, isOpen, Option.map_some, Option.map_some, facts]
    · rw [AList.lookup_insert_ne same]
  live := rfl

end Same

theorem send_same (frame : UserChannelFrame) (isOpen : ws ∈ gateway.sockets) :
    gateway.Same (gateway.send ws frame) := by
  obtain ⟨data, isOpen⟩ := lookup_of_mem isOpen
  unfold send
  rw [isOpen]
  exact ⟨rfl, fun _ => rfl, rfl⟩

theorem sendNumbered_same (frame : Nat → UserChannelFrame) (isOpen : ws ∈ gateway.sockets) :
    gateway.Same (gateway.sendNumbered ws frame) := by
  obtain ⟨data, isOpen⟩ := lookup_of_mem isOpen
  unfold sendNumbered
  rw [isOpen]
  exact .insert isOpen rfl

/-- A subscription is answered without an effect on the map, or its socket is closed. -/
theorem answer_cases (user : UserId) (channel : UserChannel) (isOpen : ws ∈ gateway.sockets) :
    gateway.Answers user (some channel) ∧ gateway.Same (gateway.answer ws user channel) ∨
      ¬ gateway.Answers user (some channel) ∧
        ∃ left, gateway.Same left ∧ gateway.answer ws user channel = left.abort ws := by
  cases channel with
  | user =>
      unfold answer
      dsimp only
      split <;> rename_i writes
      · have first := sendNumbered_same (fun seqNum => .orders seqNum (gateway.snapshot user)) isOpen
        split <;> rename_i isText
        · exact .inl ⟨⟨writes, isText⟩, first.trans (sendNumbered_same .subscriptions (first.opened.mpr isOpen))⟩
        · exact .inr ⟨fun answers => isText answers.2, _, first, rfl⟩
      · exact .inr ⟨fun answers => writes answers.1, gateway, .refl gateway, rfl⟩
  | heartbeats =>
      have first : gateway.Same (gateway.subscribeHeartbeat ws) := by
        obtain ⟨data, isOpen⟩ := lookup_of_mem isOpen
        unfold subscribeHeartbeat
        rw [isOpen]
        exact .insert isOpen rfl
      exact .inl ⟨trivial, first.trans (sendNumbered_same .subscriptions (first.opened.mpr isOpen))⟩
  | futuresBalanceSummary => exact .inl ⟨trivial, sendNumbered_same .balances isOpen⟩
  | unsupported => exact .inl ⟨trivial, send_same .error isOpen⟩

theorem sendHeartbeat_same (isOpen : ws ∈ gateway.sockets) : gateway.Same (gateway.sendHeartbeat ws) :=
  (sendNumbered_same (fun seqNum => .heartbeat seqNum gateway.heartbeatCount) isOpen).trans
    ⟨rfl, fun _ => rfl, rfl⟩

/-! ## One socket -/

theorem speaksFor_insert (next : PerSocketData) (other : Nat) :
    ((gateway.sockets.insert ws next).lookup other).bind PerSocketData.speaksFor =
      if other = ws then next.speaksFor else gateway.speaksFor other := by
  by_cases same : other = ws
  · subst same
    rw [AList.lookup_insert, if_pos rfl]
    rfl
  · rw [AList.lookup_insert_ne same, if_neg same]
    rfl

theorem speaksFor_erase (other : Nat) :
    ((gateway.sockets.erase ws).lookup other).bind PerSocketData.speaksFor =
      if other = ws then none else gateway.speaksFor other := by
  by_cases same : other = ws
  · subst same
    rw [AList.lookup_erase, if_pos rfl]
    rfl
  · rw [AList.lookup_erase_ne same, if_neg same]
    rfl

theorem handleClose_eq (isOpen : gateway.sockets.lookup ws = some data) :
    gateway.handleClose ws =
      { gateway with
        clients := if data.userId.isEmpty then gateway.clients else gateway.clients.erase data.userId
        sockets := gateway.sockets.erase ws } := by
  unfold handleClose
  rw [isOpen]

theorem speaksFor_eq (isOpen : gateway.sockets.lookup ws = some data) :
    gateway.speaksFor ws = data.speaksFor := by
  unfold speaksFor
  rw [isOpen]
  rfl

/-- A filed socket that is left in the map after it has closed. -/
theorem not_routed_of_stale (isFiled : after.clients.lookup user = some ws)
    (closed : after.speaksFor ws = none) : ¬ after.Routed := by
  intro routed
  have speaks := routed.filed user ws isFiled
  rw [closed] at speaks
  cases speaks

/-- A socket closes that is filed nowhere afterwards, and whoever is dropped from the map has
no other socket. -/
theorem routed_of_departure (routed : gateway.Routed) (live : after.touchedStale = gateway.touchedStale)
    (closed : ∀ other, after.speaksFor other = if other = ws then none else gateway.speaksFor other)
    (kept : ∀ user other, after.clients.lookup user = some other →
      gateway.clients.lookup user = some other ∧ other ≠ ws)
    (sole : ∀ user other, user ∉ after.clients → other ≠ ws → gateway.speaksFor other ≠ some user) :
    after.Routed where
  filed := by
    intro user other isFiled
    obtain ⟨before, different⟩ := kept user other isFiled
    rw [closed, if_neg different]
    exact routed.filed user other before
  present := by
    intro other user speaks
    rw [closed] at speaks
    split at speaks
    · cases speaks
    · rename_i different
      exact by_contra fun dropped => sole user other dropped different speaks
  live := live.trans routed.live

section Close

variable (isOpen : gateway.sockets.lookup ws = some data)
include isOpen

theorem handleClose_speaksFor (other : Nat) : (gateway.handleClose ws).speaksFor other =
    if other = ws then none else gateway.speaksFor other := by
  rw [handleClose_eq isOpen]
  exact speaksFor_erase other

theorem handleClose_live : (gateway.handleClose ws).touchedStale = gateway.touchedStale := by
  rw [handleClose_eq isOpen]

theorem handleClose_clients_empty (empty : data.userId = []) :
    (gateway.handleClose ws).clients = gateway.clients := by
  rw [handleClose_eq isOpen, empty]
  rfl

theorem handleClose_clients (named : data.userId ≠ []) :
    (gateway.handleClose ws).clients = gateway.clients.erase data.userId := by
  rw [handleClose_eq isOpen]
  exact if_neg (by simpa using named)

theorem close_silent (routed : gateway.Routed) (silent : gateway.speaksFor ws = none)
    (empty : data.userId = []) : (gateway.handleClose ws).Routed := by
  apply routed_of_departure routed (handleClose_live isOpen) (handleClose_speaksFor isOpen)
  · intro user other isFiled
    rw [handleClose_clients_empty isOpen empty] at isFiled
    refine ⟨isFiled, ?_⟩
    rintro rfl
    rw [routed.filed user other isFiled] at silent
    cases silent
  · intro user other dropped _ speaks
    rw [handleClose_clients_empty isOpen empty] at dropped
    exact dropped (routed.present other user speaks)

theorem close_unnamed_iff (routed : gateway.Routed) (mine : gateway.speaksFor ws = some [])
    (empty : data.userId = []) :
    (gateway.handleClose ws).Routed ↔ ∃ other, other ≠ ws ∧ gateway.clients.lookup [] = some other := by
  have clients := handleClose_clients_empty isOpen empty
  constructor
  · intro kept
    obtain ⟨other, isFiled⟩ := Option.isSome_iff_exists.mp
      (AList.lookup_isSome.mpr (routed.present ws _ mine))
    refine ⟨other, ?_, isFiled⟩
    rintro rfl
    refine not_routed_of_stale (clients ▸ isFiled) ?_ kept
    rw [handleClose_speaksFor isOpen, if_pos rfl]
  · rintro ⟨keeper, different, keeps⟩
    apply routed_of_departure routed (handleClose_live isOpen) (handleClose_speaksFor isOpen)
    · intro user other isFiled
      rw [clients] at isFiled
      refine ⟨isFiled, ?_⟩
      rintro rfl
      have same := routed.filed user other isFiled
      rw [mine] at same
      rw [← Option.some.inj same, keeps] at isFiled
      exact different (Option.some.inj isFiled)
    · intro user other dropped _ speaks
      rw [clients] at dropped
      exact dropped (routed.present other user speaks)

theorem close_named_iff (routed : gateway.Routed) (mine : gateway.speaksFor ws = some data.userId)
    (named : data.userId ≠ []) :
    (gateway.handleClose ws).Routed ↔ ∀ other, other ≠ ws → gateway.speaksFor other ≠ some data.userId := by
  have clients := handleClose_clients isOpen named
  constructor
  · intro kept other different speaks
    have present := kept.present other data.userId
      (by rw [handleClose_speaksFor isOpen, if_neg different]; exact speaks)
    rw [clients, AList.mem_erase] at present
    exact present.1 rfl
  · intro sole
    apply routed_of_departure routed (handleClose_live isOpen) (handleClose_speaksFor isOpen)
    · intro user other isFiled
      rw [clients] at isFiled
      have different : user ≠ data.userId := by
        rintro rfl
        rw [AList.lookup_erase] at isFiled
        cases isFiled
      rw [AList.lookup_erase_ne different] at isFiled
      refine ⟨isFiled, ?_⟩
      rintro rfl
      rw [routed.filed user other isFiled] at mine
      exact different (Option.some.inj mine)
    · intro user other dropped different speaks
      by_cases same : user = data.userId
      · exact sole other different (same ▸ speaks)
      · rw [clients, AList.mem_erase] at dropped
        exact dropped ⟨same, routed.present other user speaks⟩

end Close

theorem handleClose_routed_iff (known : gateway.Known) (routed : gateway.Routed)
    (isOpen : ws ∈ gateway.sockets) :
    (gateway.handleClose ws).Routed ↔
      ∀ user, gateway.speaksFor ws = some user → gateway.DepartsAs ws user := by
  obtain ⟨data, isOpen⟩ := lookup_of_mem isOpen
  have speaks := speaksFor_eq isOpen
  unfold PerSocketData.speaksFor at speaks
  split at speaks <;> rename_i authenticated
  · have only : (∀ user, gateway.speaksFor ws = some user → gateway.DepartsAs ws user) ↔
        gateway.DepartsAs ws data.userId := by
      simp [speaks]
    rw [only]
    unfold DepartsAs
    split <;> rename_i named
    · exact close_unnamed_iff isOpen routed (named ▸ speaks) named
    · exact close_named_iff isOpen routed speaks named
  · refine iff_of_true (close_silent isOpen routed speaks (known ws data isOpen (by simpa using authenticated))) ?_
    intro user isUser
    rw [speaks] at isUser
    cases isUser

theorem handleClose_known (known : gateway.Known) : (gateway.handleClose ws).Known := by
  unfold handleClose
  cases isOpen : gateway.sockets.lookup ws with
  | none => exact known
  | some data =>
      intro other data' found
      by_cases same : other = ws
      · subst same
        rw [show _ = none from AList.lookup_erase other gateway.sockets] at found
        cases found
      · exact known other data' ((AList.lookup_erase_ne same).symm.trans found)

/-! ## Subscribing -/

section Register

variable {sub : List UInt8} (isOpen : gateway.sockets.lookup ws = some data)
include isOpen

theorem register_speaksFor (other : Nat) : (gateway.register ws sub).speaksFor other =
    if other = ws then some (userOfSubject sub) else gateway.speaksFor other := by
  unfold register
  rw [isOpen]
  dsimp only
  split <;> exact speaksFor_insert _ other

theorem register_lookup (user : UserId) : (gateway.register ws sub).clients.lookup user =
    if user = userOfSubject sub ∧ user ∉ gateway.clients then some ws else gateway.clients.lookup user := by
  unfold register
  rw [isOpen]
  dsimp only
  split <;> rename_i present
  · rw [if_neg fun absent => absent.2 (absent.1 ▸ present)]
  · by_cases same : user = userOfSubject sub
    · rw [same, if_pos ⟨rfl, present⟩]
      exact AList.lookup_insert _
    · rw [if_neg fun both => same both.1]
      exact AList.lookup_insert_ne same

theorem register_live : (gateway.register ws sub).touchedStale = gateway.touchedStale := by
  unfold register
  rw [isOpen]
  dsimp only
  split <;> rfl

omit isOpen in
theorem register_orders (sub : List UInt8) : (gateway.register ws sub).orders = gateway.orders := by
  unfold register
  split
  · rfl
  · dsimp only
    split <;> rfl

theorem register_opened : ws ∈ (gateway.register ws sub).sockets :=
  @mem_of_speaksFor _ _ (userOfSubject sub) (by rw [register_speaksFor isOpen, if_pos rfl])

theorem register_routed_iff (routed : gateway.Routed) :
    (gateway.register ws sub).Routed ↔
      ∀ filed, gateway.clients.lookup filed = some ws → filed = userOfSubject sub := by
  constructor
  · intro kept filed isFiled
    have present : filed ∈ gateway.clients := by
      rw [← AList.lookup_isSome, isFiled]
      rfl
    have speaks := kept.filed filed ws
      (by rw [register_lookup isOpen, if_neg fun absent => absent.2 present]; exact isFiled)
    rw [register_speaksFor isOpen, if_pos rfl] at speaks
    exact (Option.some.inj speaks).symm
  · intro keeps
    refine ⟨?_, ?_, (register_live isOpen).trans routed.live⟩
    · intro user other isFiled
      rw [register_lookup isOpen] at isFiled
      rw [register_speaksFor isOpen]
      split at isFiled <;> rename_i new
      · rw [if_pos (Option.some.inj isFiled).symm, new.1]
      · split <;> rename_i same
        · rw [keeps user (same ▸ isFiled)]
        · exact routed.filed user other isFiled
    · intro other user speaks
      rw [register_speaksFor isOpen] at speaks
      rw [← AList.lookup_isSome, register_lookup isOpen]
      split <;> rename_i new
      · rfl
      · rw [AList.lookup_isSome]
        split at speaks
        · exact by_contra fun absent => new ⟨(Option.some.inj speaks).symm, absent⟩
        · exact routed.present other user speaks

end Register

theorem register_known {sub : List UInt8} (known : gateway.Known) : (gateway.register ws sub).Known := by
  unfold register
  cases isOpen : gateway.sockets.lookup ws with
  | none => exact known
  | some data =>
      intro other data' found silent
      by_cases same : other = ws
      · subst same
        dsimp only at found
        split at found
        all_goals
          rw [show _ = some _ from AList.lookup_insert gateway.sockets] at found
          obtain rfl := Option.some.inj found
          cases silent
      · dsimp only at found
        split at found
        all_goals exact known other data' ((AList.lookup_insert_ne same).symm.trans found) silent

/-- The socket is closed in the handler that registered it. -/
theorem registerAbort_routed_iff {sub : List UInt8} (known : gateway.Known) (routed : gateway.Routed)
    (isOpen : ws ∈ gateway.sockets) (answered : (gateway.register ws sub).Same after) :
    (after.abort ws).Routed ↔
      (∀ filed, gateway.clients.lookup filed = some ws → filed = userOfSubject sub) ∧
        gateway.DepartsAs ws (userOfSubject sub) := by
  obtain ⟨data, found⟩ := lookup_of_mem isOpen
  have same : (gateway.register ws sub).Same (after.send ws .error) :=
    answered.trans (send_same .error (answered.opened.mpr (@register_opened _ _ _ sub found)))
  unfold abort
  have speaks : ∀ other, (after.send ws .error).speaksFor other =
      if other = ws then some (userOfSubject sub) else gateway.speaksFor other :=
    fun other => (same.speaksFor other).trans (register_speaksFor found other)
  have opened := same.opened.mpr (@register_opened _ _ _ sub found)
  have departs : (∀ user, (after.send ws .error).speaksFor ws = some user →
      (after.send ws .error).DepartsAs ws user) ↔
        gateway.DepartsAs ws (userOfSubject sub) := by
    rw [speaks, if_pos rfl]
    simp only [Option.some.injEq, forall_eq']
    unfold DepartsAs
    split <;> rename_i named
    · refine exists_congr fun other => and_congr_right fun different => ?_
      rw [same.clients, register_lookup found]
      split <;> rename_i new
      · refine iff_of_false (fun eq => different (Option.some.inj eq).symm) ?_
        rw [AList.lookup_eq_none.mpr new.2]
        exact Option.some_ne_none _ ∘ Eq.symm
      · exact Iff.rfl
    · refine forall_congr' fun other => imp_congr_right fun different => ?_
      rw [speaks, if_neg different]
  by_cases keeps : ∀ filed, gateway.clients.lookup filed = some ws → filed = userOfSubject sub
  · have registered := same.routed_iff.mpr ((register_routed_iff found routed).mpr keeps)
    rw [handleClose_routed_iff (same.known (register_known known)) registered opened, departs]
    exact ⟨fun closes => ⟨keeps, closes⟩, And.right⟩
  · refine iff_of_false ?_ fun both => keeps both.1
    -- Closing erases the entry of the new user, never the one the socket is filed under.
    push Not at keeps
    obtain ⟨filed, isFiled, different⟩ := keeps
    obtain ⟨next, isNext⟩ := lookup_of_mem opened
    have user : next.speaksFor = some (userOfSubject sub) := by
      rw [← speaksFor_eq isNext, speaks, if_pos rfl]
    have named : next.userId = userOfSubject sub := by
      unfold PerSocketData.speaksFor at user
      split at user
      · exact Option.some.inj user
      · cases user
    have still : (after.send ws .error).clients.lookup filed = some ws := by
      rw [same.clients, register_lookup found, if_neg fun new => different new.1]
      exact isFiled
    refine @not_routed_of_stale _ ws filed ?_ ?_
    · by_cases empty : next.userId = []
      · rw [handleClose_clients_empty isNext empty]
        exact still
      · rw [handleClose_clients isNext empty, AList.lookup_erase_ne (by rw [named]; exact different)]
        exact still
    · rw [handleClose_speaksFor isNext, if_pos rfl]

/-! ## Responses -/

theorem processResponse_same (routed : gateway.Routed) (response : OrderResponse) :
    gateway.Same (gateway.processResponse response) := by
  have folded : gateway.Same { gateway with orders := gateway.orders.apply response } := ⟨rfl, fun _ => rfl, rfl⟩
  refine folded.trans ?_
  unfold processResponse
  dsimp only
  split
  · exact .refl _
  · split <;> rename_i isFiled
    · exact .refl _
    · unfold handleOrderResponse
      split
      · exact .refl _
      · split
        · exact sendNumbered_same _ (mem_of_speaksFor (routed.filed _ _ isFiled))
        · exact ⟨rfl, fun _ => rfl, rfl⟩

theorem processResponses_same (routed : gateway.Routed) (batch : Nat) :
    gateway.Same (gateway.processResponses batch) := by
  induction batch generalizing gateway with
  | zero => exact .refl gateway
  | succ batch ih =>
      unfold processResponses
      split
      · exact .refl gateway
      · rename_i response unread isNext
        have read : gateway.Same { gateway with unread } := ⟨rfl, fun _ => rfl, rfl⟩
        have first := read.trans (processResponse_same (read.routed_iff.mpr routed) response)
        dsimp only
        split
        · exact first
        · exact first.trans (ih (first.routed_iff.mpr routed))

/-! ## Heartbeats -/

/-- What a visit of the timer does to the map. -/
theorem checkClient_cases (pongTimeout now : Nat) (user : UserId) :
    gateway.Same (gateway.checkClient pongTimeout now user) ∧
        (∀ ws data, gateway.clients.lookup user = some ws → gateway.sockets.lookup ws = some data →
          ¬ TimedOut pongTimeout now data) ∨
      (∃ ws, gateway.clients.lookup user = some ws ∧ ws ∉ gateway.sockets ∧
        gateway.checkClient pongTimeout now user = gateway.touchStale) ∨
      ∃ ws data, gateway.clients.lookup user = some ws ∧ gateway.sockets.lookup ws = some data ∧
        TimedOut pongTimeout now data ∧
        gateway.checkClient pongTimeout now user =
          { gateway with clients := gateway.clients.erase user }.handleClose ws := by
  unfold checkClient
  cases isFiled : gateway.clients.lookup user with
  | none => exact .inl ⟨.refl gateway, fun _ _ nothing => by cases nothing⟩
  | some ws =>
      dsimp only
      cases found : gateway.sockets.lookup ws with
      | none =>
          refine .inr (.inl ⟨ws, rfl, ?_, rfl⟩)
          rw [← AList.lookup_isSome, found]
          exact Bool.false_ne_true
      | some data =>
          dsimp only
          split <;> rename_i timedOut
          · exact .inr (.inr ⟨ws, data, rfl, found, timedOut, rfl⟩)
          · refine .inl ⟨?_, ?_⟩
            · have opened : ws ∈ gateway.sockets := by
                rw [← AList.lookup_isSome, found]
                rfl
              split
              · have first := sendHeartbeat_same opened
                exact first.trans (send_same .ping (first.opened.mpr opened))
              · exact send_same .ping opened
            · intro _ _ isFiled isOpen
              obtain rfl := Option.some.inj isFiled
              rw [found] at isOpen
              exact Option.some.inj isOpen ▸ timedOut

/-- The timer closes the socket of a user: what is left of the map. -/
theorem timeout_lookup (isOpen : gateway.sockets.lookup ws = some data) (user filed : UserId) :
    ({ gateway with clients := gateway.clients.erase user }.handleClose ws).clients.lookup filed =
      if filed = user ∨ filed = data.userId ∧ data.userId ≠ [] then none
      else gateway.clients.lookup filed := by
  have erased : (gateway.clients.erase user).lookup filed =
      if filed = user then none else gateway.clients.lookup filed := by
    split <;> rename_i same
    · rw [same]
      exact AList.lookup_erase ..
    · exact AList.lookup_erase_ne same
  by_cases empty : data.userId = []
  · rw [@handleClose_clients_empty { gateway with clients := gateway.clients.erase user } _ _ isOpen empty]
    simp [empty, erased]
  · rw [@handleClose_clients { gateway with clients := gateway.clients.erase user } _ _ isOpen empty]
    by_cases same : filed = data.userId
    · rw [if_pos (.inr ⟨same, empty⟩), same]
      exact AList.lookup_erase ..
    · simp [same, AList.lookup_erase_ne same, erased]

/-- Visits only take from the map, and close the sockets they take from it. -/
structure Fewer (user : UserId) (before after : CoinbaseWsOrderGateway) : Prop where
  clients : ∀ filed ws, after.clients.lookup filed = some ws → before.clients.lookup filed = some ws
  speaks : ∀ ws filed, after.speaksFor ws = some filed → before.speaksFor ws = some filed
  sockets : ∀ ws data, after.sockets.lookup ws = some data →
    ∃ earlier, before.sockets.lookup ws = some earlier ∧ standing earlier = standing data

theorem Same.fewer (same : gateway.Same after) : Fewer user gateway after where
  clients := fun _ _ isFiled => same.clients ▸ isFiled
  speaks := fun ws _ speaks => (same.speaksFor ws).symm.trans speaks
  sockets := fun _ _ isOpen => same.found isOpen

theorem checkClient_fewer (pongTimeout now : Nat) (user : UserId) :
    Fewer user gateway (gateway.checkClient pongTimeout now user) := by
  rcases @checkClient_cases gateway pongTimeout now user with
    ⟨same, -⟩ | ⟨ws, -, -, touched⟩ | ⟨ws, data, -, isOpen, -, closes⟩
  · exact same.fewer
  · rw [touched]
    exact ⟨fun _ _ => id, fun _ _ => id, fun _ data isOpen => ⟨data, isOpen, rfl⟩⟩
  · rw [closes]
    refine ⟨?_, ?_, ?_⟩
    · intro filed other isFiled
      rw [timeout_lookup isOpen] at isFiled
      split at isFiled
      · cases isFiled
      · exact isFiled
    · intro other filed speaks
      rw [@handleClose_speaksFor { gateway with clients := gateway.clients.erase user } _ _ isOpen] at speaks
      split at speaks
      · cases speaks
      · exact speaks
    · intro other data' found
      rw [@handleClose_eq { gateway with clients := gateway.clients.erase user } _ _ isOpen] at found
      by_cases same : other = ws
      · rw [same, show _ = none from AList.lookup_erase ws gateway.sockets] at found
        cases found
      · exact ⟨data', (AList.lookup_erase_ne same).symm.trans found, rfl⟩

theorem timedOut_congr {left right : PerSocketData} (same : standing left = standing right) :
    TimedOut pongTimeout now left ↔ TimedOut pongTimeout now right := by
  have pongs : left.lastPong = right.lastPong := congrArg (fun facts => facts.2.2) same
  unfold TimedOut
  rw [pongs]

/-- A socket that times out has no other beside it. -/
def SoleIfDue (pongTimeout now : Nat) (gateway : CoinbaseWsOrderGateway) (user : UserId) : Prop :=
  ∀ ws data, gateway.clients.lookup user = some ws → gateway.sockets.lookup ws = some data →
    TimedOut pongTimeout now data → ∀ other, other ≠ ws → gateway.speaksFor other ≠ some user

theorem SoleIfDue.fewer {visited : UserId} (sole : gateway.SoleIfDue pongTimeout now user)
    (fewer : Fewer visited gateway after) : after.SoleIfDue pongTimeout now user := by
  intro ws data isFiled isOpen timedOut other different speaks
  obtain ⟨earlier, found, facts⟩ := fewer.sockets ws data isOpen
  exact sole ws earlier (fewer.clients user ws isFiled) found ((timedOut_congr facts).mpr timedOut) other
    different (fewer.speaks other user speaks)

/-- A visit of a right map keeps it right, and takes no other entry. -/
theorem checkClient_routed (routed : gateway.Routed) (sole : gateway.SoleIfDue pongTimeout now user) :
    (gateway.checkClient pongTimeout now user).Routed ∧
      ∀ filed, filed ≠ user → filed ∈ gateway.clients →
        filed ∈ (gateway.checkClient pongTimeout now user).clients := by
  rcases @checkClient_cases gateway pongTimeout now user with
    ⟨same, -⟩ | ⟨ws, isFiled, closed, -⟩ | ⟨ws, data, isFiled, isOpen, timedOut, closes⟩
  · exact ⟨same.routed_iff.mpr routed, fun filed _ inside => same.clients ▸ inside⟩
  · exact absurd (mem_of_speaksFor (routed.filed user ws isFiled)) closed
  · have speaks := routed.filed user ws isFiled
    have isUser : data.userId = user := by
      rw [speaksFor_eq isOpen, PerSocketData.speaksFor] at speaks
      split at speaks
      · exact Option.some.inj speaks
      · cases speaks
    have lookup : ∀ filed, (gateway.checkClient pongTimeout now user).clients.lookup filed =
        if filed = user then none else gateway.clients.lookup filed := by
      intro filed
      rw [closes, timeout_lookup isOpen, isUser]
      by_cases same : filed = user <;> simp [same]
    refine ⟨?_, ?_⟩
    · apply @routed_of_departure gateway _ ws routed
      · rw [closes, @handleClose_live { gateway with clients := gateway.clients.erase user } _ _ isOpen]
      · intro other
        rw [closes]
        exact @handleClose_speaksFor { gateway with clients := gateway.clients.erase user } _ _ isOpen other
      · intro filed other found
        rw [lookup] at found
        split at found
        · cases found
        · rename_i different
          refine ⟨found, ?_⟩
          rintro rfl
          have also := routed.filed filed other found
          rw [speaks] at also
          exact different (Option.some.inj also).symm
      · intro filed other dropped different speaksAs
        by_cases same : filed = user
        · exact sole ws data isFiled isOpen timedOut other different (same ▸ speaksAs)
        · refine dropped ?_
          rw [← AList.lookup_isSome, lookup, if_neg same, AList.lookup_isSome]
          exact routed.present other filed speaksAs
    · intro filed different inside
      rw [← AList.lookup_isSome, lookup, if_neg different, AList.lookup_isSome]
      exact inside

theorem checkHeartbeats_routed {visits : List UserId} (distinct : visits.Nodup) (routed : gateway.Routed)
    (sole : ∀ user ∈ visits, gateway.SoleIfDue pongTimeout now user) :
    (checkHeartbeats pongTimeout now visits gateway).Routed := by
  induction visits generalizing gateway with
  | nil => exact routed
  | cons user visits ih =>
      obtain ⟨kept, others⟩ := checkClient_routed routed (sole user List.mem_cons_self)
      have fewer := @checkClient_fewer gateway pongTimeout now user
      unfold checkHeartbeats
      dsimp only
      rw [if_neg]
      · exact ih (List.nodup_cons.mp distinct).2 kept fun next later =>
          (sole next (List.mem_cons_of_mem _ later)).fewer fewer
      · -- The entry the iterator stands on is another one.
        intro stale
        obtain ⟨next, stands, erased⟩ := (Option.any_eq_true ..).mp stale
        have later := List.mem_of_find?_eq_some stands
        have inside := List.find?_some stands
        have different : next ≠ user := by
          rintro rfl
          exact (List.nodup_cons.mp distinct).1 later
        exact of_decide_eq_true erased (others next different (of_decide_eq_true inside))

/-- A second socket of a user whose filed socket has timed out. -/
structure Stranded (pongTimeout now : Nat) (gateway : CoinbaseWsOrderGateway) (user : UserId)
    (ws other : Nat) : Prop where
  speaks : gateway.speaksFor other = some user
  unfiled : ∀ filed, gateway.clients.lookup filed ≠ some other
  mine : ∀ filed, gateway.clients.lookup filed = some ws → filed = user
  due : ∀ holder, gateway.clients.lookup user = some holder →
    holder = ws ∧ ∃ data, gateway.sockets.lookup ws = some data ∧ TimedOut pongTimeout now data

theorem Stranded.checkClient (stranded : gateway.Stranded pongTimeout now user ws other) (visited : UserId) :
    (gateway.checkClient pongTimeout now visited).Stranded pongTimeout now user ws other := by
  have fewer := @checkClient_fewer gateway pongTimeout now visited
  refine ⟨?_, fun filed isFiled => stranded.unfiled filed (fewer.clients _ _ isFiled),
    fun filed isFiled => stranded.mine filed (fewer.clients _ _ isFiled), ?_⟩
  · rcases @checkClient_cases gateway pongTimeout now visited with
      ⟨same, -⟩ | ⟨_, -, -, touched⟩ | ⟨holder, data, isFiled, isOpen, -, closes⟩
    · exact (same.speaksFor other).trans stranded.speaks
    · rw [touched]
      exact stranded.speaks
    · have different : other ≠ holder := by
        rintro rfl
        exact stranded.unfiled visited isFiled
      rw [closes, @handleClose_speaksFor { gateway with clients := gateway.clients.erase visited } _ _ isOpen,
        if_neg different]
      exact stranded.speaks
  · intro holder isHolder
    obtain ⟨rfl, data, isOpen, timedOut⟩ := stranded.due holder (fewer.clients _ _ isHolder)
    refine ⟨rfl, ?_⟩
    rcases @checkClient_cases gateway pongTimeout now visited with
      ⟨same, -⟩ | ⟨_, -, -, touched⟩ | ⟨closed, data', isFiled, found, -, closes⟩
    · have facts := same.sockets holder
      rw [isOpen] at facts
      obtain ⟨later, isLater, same⟩ := Option.map_eq_some_iff.mp facts
      exact ⟨later, isLater, (timedOut_congr same).mpr timedOut⟩
    · rw [touched]
      exact ⟨data, isOpen, timedOut⟩
    · have different : holder ≠ closed := by
        rintro rfl
        have same := stranded.mine visited isFiled
        rw [closes, timeout_lookup found, if_pos (.inl same.symm)] at isHolder
        cases isHolder
      rw [closes, @handleClose_eq { gateway with clients := gateway.clients.erase visited } _ _ found]
      exact ⟨data, (AList.lookup_erase_ne different).trans isOpen, timedOut⟩

theorem Stranded.erased (stranded : gateway.Stranded pongTimeout now user ws other) :
    user ∉ (gateway.checkClient pongTimeout now user).clients := by
  rcases @checkClient_cases gateway pongTimeout now user with
    ⟨same, calm⟩ | ⟨holder, isFiled, closed, -⟩ | ⟨holder, data, -, isOpen, -, closes⟩
  · rw [same.clients, ← AList.lookup_eq_none]
    cases isFiled : gateway.clients.lookup user with
    | none => rfl
    | some holder =>
        obtain ⟨rfl, data, isOpen, timedOut⟩ := stranded.due holder isFiled
        exact absurd timedOut (calm holder data isFiled isOpen)
  · obtain ⟨rfl, data, isOpen, -⟩ := stranded.due holder isFiled
    refine absurd ?_ closed
    rw [← AList.lookup_isSome, isOpen]
    rfl
  · rw [closes, ← AList.lookup_eq_none, timeout_lookup isOpen, if_pos (.inl rfl)]

/-- The entry of the user goes, the second socket stays. -/
theorem Stranded.checkHeartbeats {visits : List UserId}
    (stranded : gateway.Stranded pongTimeout now user ws other)
    (visited : user ∈ visits ∨ user ∉ gateway.clients) :
    ¬ (checkHeartbeats pongTimeout now visits gateway).Routed := by
  induction visits generalizing gateway with
  | nil =>
      intro routed
      rcases visited with inside | gone
      · cases inside
      · exact gone (routed.present other user stranded.speaks)
  | cons next visits ih =>
      have later := stranded.checkClient next
      have fewer := @checkClient_fewer gateway pongTimeout now next
      have still : user ∈ visits ∨ user ∉ (gateway.checkClient pongTimeout now next).clients := by
        rcases visited with inside | gone
        · rcases List.mem_cons.mp inside with rfl | inside
          · exact .inr stranded.erased
          · exact .inl inside
        · right
          intro present
          obtain ⟨holder, isFiled⟩ := Option.isSome_iff_exists.mp (AList.lookup_isSome.mpr present)
          refine gone ?_
          rw [← AList.lookup_isSome, fewer.clients _ _ isFiled]
          rfl
      unfold CoinbaseWsOrderGateway.checkHeartbeats
      dsimp only
      split
      · exact ih ⟨later.speaks, later.unfiled, later.mine, later.due⟩ still
      · exact ih later still

theorem checkHeartbeats_routed_iff {visits : List UserId} (every : visits.Perm gateway.clients.keys)
    (routed : gateway.Routed) :
    (checkHeartbeats pongTimeout now visits gateway).Routed ↔
      ∀ user, gateway.SoleIfDue pongTimeout now user := by
  constructor
  · intro kept user ws data isFiled isOpen timedOut other different speaks
    have visited : user ∈ visits := by
      rw [every.mem_iff, ← AList.mem_keys, ← AList.lookup_isSome, isFiled]
      rfl
    refine @Stranded.checkHeartbeats _ ws other _ _ user _ ⟨speaks, ?_, ?_, ?_⟩ (.inl visited) kept
    · intro filed isHolder
      have same := routed.filed filed other isHolder
      rw [speaks] at same
      rw [← Option.some.inj same, isFiled] at isHolder
      exact different (Option.some.inj isHolder).symm
    · intro filed isHolder
      have same := routed.filed filed ws isHolder
      rw [routed.filed user ws isFiled] at same
      exact (Option.some.inj same).symm
    · intro holder isHolder
      rw [isFiled] at isHolder
      exact ⟨(Option.some.inj isHolder).symm, data, isOpen, timedOut⟩
  · intro sole
    refine checkHeartbeats_routed ?_ routed fun user _ => sole user
    exact every.nodup_iff.mpr gateway.clients.keys_nodup

/-! ## Runs -/

theorem Fewer.known {visited : UserId} (fewer : Fewer visited gateway after) (known : gateway.Known) :
    after.Known := by
  intro ws data isOpen silent
  obtain ⟨earlier, found, facts⟩ := fewer.sockets ws data isOpen
  obtain ⟨flag, userId, -⟩ : earlier.authenticated = data.authenticated ∧ earlier.userId = data.userId ∧
      earlier.lastPong = data.lastPong := by
    simpa [standing] using facts
  rw [← userId]
  exact known ws earlier found (flag.trans silent)

theorem checkHeartbeats_known {visits : List UserId} (known : gateway.Known) :
    (checkHeartbeats pongTimeout now visits gateway).Known := by
  induction visits generalizing gateway with
  | nil => exact known
  | cons user visits ih =>
      have kept := (@checkClient_fewer gateway pongTimeout now user).known known
      unfold checkHeartbeats
      dsimp only
      split
      · exact ih kept
      · exact ih kept

/-- Writing a socket's data keeps what is known of the others. -/
theorem Known.insert {next : PerSocketData} (known : gateway.Known)
    (here : next.authenticated = false → next.userId = []) (sockets : after.sockets = gateway.sockets.insert ws next) :
    after.Known := by
  intro other data found silent
  rw [sockets] at found
  by_cases same : other = ws
  · subst same
    rw [AList.lookup_insert] at found
    obtain rfl := Option.some.inj found
    exact here silent
  · exact known other data ((AList.lookup_insert_ne same).symm.trans found) silent

theorem abort_known (known : gateway.Known) (isOpen : ws ∈ gateway.sockets) : (gateway.abort ws).Known :=
  handleClose_known ((send_same .error isOpen).known known)

theorem abort_routed_iff (known : gateway.Known) (routed : gateway.Routed) (isOpen : ws ∈ gateway.sockets) :
    (gateway.abort ws).Routed ↔ ∀ user, gateway.speaksFor ws = some user → gateway.DepartsAs ws user := by
  have same := send_same .error isOpen
  refine (handleClose_routed_iff (same.known known) (same.routed_iff.mpr routed) (same.opened.mpr isOpen)).trans ?_
  unfold DepartsAs
  simp only [same.speaksFor, same.clients]

theorem handleMessage_known (message : UserChannelMessage) (known : gateway.Known) (isOpen : ws ∈ gateway.sockets) :
    (gateway.handleMessage ws message).Known := by
  cases message with
  | unsupported | withoutToken => exact (send_same .error isOpen).known known
  | malformed => exact known
  | subscribe subject channel =>
      rcases subject with _ | sub
      · exact abort_known known isOpen
      · obtain ⟨data, found⟩ := lookup_of_mem isOpen
        have registered := @register_known _ ws sub known
        have opened := @register_opened _ _ _ sub found
        rcases channel with _ | channel
        · exact abort_known registered opened
        · rcases answer_cases (userOfSubject sub) channel opened with ⟨-, same⟩ | ⟨-, left, same, aborts⟩
          · exact same.known registered
          · refine (congrArg Known aborts).mpr ?_
            exact abort_known (same.known registered) (same.opened.mpr opened)

theorem handlePong_known (known : gateway.Known) : (gateway.handlePong ws now).Known := by
  unfold handlePong
  split <;> rename_i isOpen
  · exact known
  · have here := known ws _ isOpen
    refine known.insert ?_ rfl
    exact here

theorem step_known (event : GatewayEvent) (admitted : gateway.Admits event) (known : gateway.Known)
    (routed : gateway.Routed) : (gateway.step pongTimeout event).Known := by
  obtain ⟨running, offered⟩ := admitted
  have runs := whileRunning_eq running
  cases event with
  | connect ws now => exact (congrArg Known (runs _)).mpr (known.insert (fun _ => rfl) rfl)
  | message ws message => exact (congrArg Known (runs _)).mpr (handleMessage_known message known offered)
  | pong ws now => exact (congrArg Known (runs _)).mpr (handlePong_known known)
  | close ws => exact (congrArg Known (runs _)).mpr (handleClose_known known)
  | respond response => exact known
  | processAllResponses => exact (congrArg Known (runs _)).mpr ((processResponses_same routed maxBatch).known known)
  | checkHeartbeats now visits => exact (congrArg Known (runs _)).mpr (checkHeartbeats_known known)

theorem handleMessage_routed_iff (pongTimeout : Nat) (message : UserChannelMessage) (known : gateway.Known)
    (routed : gateway.Routed) (isOpen : ws ∈ gateway.sockets) :
    (gateway.handleMessage ws message).Routed ↔ gateway.Orderly pongTimeout (.message ws message) := by
  cases message with
  | unsupported | withoutToken => exact iff_of_true ((send_same .error isOpen).routed_iff.mpr routed) trivial
  | malformed => exact iff_of_true ((@routed_congr gateway gateway.terminate rfl (fun _ => rfl) rfl).mpr routed) trivial
  | subscribe subject channel =>
      rcases subject with _ | sub
      · exact abort_routed_iff known routed isOpen
      · obtain ⟨data, found⟩ := lookup_of_mem isOpen
        have opened := @register_opened _ _ _ sub found
        rcases channel with _ | channel
        · refine (registerAbort_routed_iff known routed isOpen (.refl _)).trans ?_
          exact and_congr_right fun _ => ⟨fun departs _ => departs, fun departs => departs id⟩
        -- What is answered depends on the orders alone, which a registration keeps.
        have sameAnswer : (gateway.register ws sub).Answers (userOfSubject sub) (some channel) ↔
            gateway.Answers (userOfSubject sub) (some channel) := by
          rw [Answers.congr (register_orders sub)]
        rcases answer_cases (userOfSubject sub) channel opened with ⟨answers, same⟩ | ⟨silent, left, same, aborts⟩
        · refine (same.routed_iff.trans (register_routed_iff found routed)).trans ?_
          exact ⟨fun keeps => ⟨keeps, fun silent => absurd (sameAnswer.mp answers) silent⟩, And.left⟩
        · refine (iff_of_eq (congrArg Routed aborts)).trans ?_
          refine (registerAbort_routed_iff known routed isOpen same).trans ?_
          exact and_congr_right fun _ =>
            ⟨fun departs _ => departs, fun departs => departs (silent ∘ sameAnswer.mpr)⟩

theorem connect_routed (routed : gateway.Routed) (fresh : ws ∉ gateway.sockets) :
    (gateway.connect ws now).Routed := by
  refine (@routed_congr gateway (gateway.connect ws now) rfl ?_ rfl).mpr routed
  intro other
  refine (speaksFor_insert _ other).trans ?_
  split <;> rename_i same
  · rw [same, speaksFor, AList.lookup_eq_none.mpr fresh]
    rfl
  · rfl

theorem handlePong_routed (routed : gateway.Routed) (isOpen : ws ∈ gateway.sockets) :
    (gateway.handlePong ws now).Routed := by
  obtain ⟨data, isOpen⟩ := lookup_of_mem isOpen
  have eq : gateway.handlePong ws now =
      { gateway with sockets := gateway.sockets.insert ws { data with lastPong := now } } := by
    unfold handlePong
    rw [isOpen]
  refine (@routed_congr gateway (gateway.handlePong ws now) ?_ ?_ ?_).mpr routed
  · rw [eq]
  · intro other
    rw [eq]
    refine (speaksFor_insert _ other).trans ?_
    split <;> rename_i same
    · rw [same, speaksFor_eq isOpen]
      rfl
    · rfl
  · rw [eq]

/-- A step keeps responses routed exactly when it is orderly. -/
theorem step_routed_iff (event : GatewayEvent) (admitted : gateway.Admits event) (known : gateway.Known)
    (routed : gateway.Routed) :
    (gateway.step pongTimeout event).Routed ↔ gateway.Orderly pongTimeout event := by
  obtain ⟨running, offered⟩ := admitted
  have runs : ∀ handler, (gateway.whileRunning handler).Routed ↔ (handler gateway).Routed :=
    fun handler => iff_of_eq (congrArg Routed (whileRunning_eq running handler))
  cases event with
  | connect ws now => exact (runs (connect · ws now)).trans (iff_of_true (connect_routed routed offered) trivial)
  | message ws message =>
      exact (runs (handleMessage · ws message)).trans
        (handleMessage_routed_iff pongTimeout message known routed offered)
  | pong ws now => exact (runs (handlePong · ws now)).trans (iff_of_true (handlePong_routed routed offered) trivial)
  | close ws => exact (runs (handleClose · ws)).trans (handleClose_routed_iff known routed offered)
  | respond response =>
      exact iff_of_true ((@routed_congr gateway { gateway with unread := gateway.unread ++ [response] } rfl
        (fun _ => rfl) rfl).mpr routed) trivial
  | processAllResponses =>
      exact (runs _).trans (iff_of_true ((processResponses_same routed maxBatch).routed_iff.mpr routed) trivial)
  | checkHeartbeats now visits => exact (runs _).trans (checkHeartbeats_routed_iff offered routed)

theorem new_routed : new.Routed := by
  refine ⟨?_, ?_, rfl⟩
  · intro user ws isFiled
    cases isFiled
  · intro ws user speaks
    cases speaks

/-- Responses are routed in every state of a run exactly when every event of it is orderly. -/
theorem run_routed_iff (pongTimeout : Nat) {events : List GatewayEvent}
    (admitted : Along (step pongTimeout) Admits new events) :
    (∀ past, past <+: events → (run pongTimeout new past).Routed) ↔
      Along (step pongTimeout) (Orderly pongTimeout) new events := by
  refine @Along.every_iff _ _ _ _ _ (fun gateway => gateway.Known ∧ gateway.Routed) _ _ _ (fun _ => And.right)
    ?_ ?_ admitted ⟨?_, new_routed⟩
  · intro gateway event admitted known kept
    exact (step_routed_iff event admitted known.1 known.2).mp kept
  · intro gateway event admitted known orderly
    exact ⟨step_known event admitted known.1 known.2, (step_routed_iff event admitted known.1 known.2).mpr orderly⟩
  · intro ws data isOpen
    cases isOpen

/-- Two users come and go, each over one socket. -/
theorem run_routed_iff_twoUsers :
    let events : List GatewayEvent :=
      [.connect 0 0, .message 0 (.subscribe (some [97]) (some .user)), .connect 1 0,
        .message 1 (.subscribe (some [98]) (some .heartbeats)), .close 0, .checkHeartbeats 5 [[98]]]
    (∀ past, past <+: events → (run 60 new past).Routed) ↔ Along (step 60) (Orderly 60) new events :=
  run_routed_iff 60 (by decide)

/-- A second socket of a user closes: its user is filed no more, though the first is open. -/
theorem not_routed_secondSocket :
    ¬ ∀ (pongTimeout : Nat) (events : List GatewayEvent), Along (step pongTimeout) Admits new events →
      ∀ past, past <+: events → (run pongTimeout new past).Routed := by
  intro every
  have routed := every 60
    [.connect 0 0, .message 0 (.subscribe (some [97]) (some .user)), .connect 1 0,
      .message 1 (.subscribe (some [97]) (some .user)), .close 1] (by decide) _ List.prefix_rfl
  exact absurd (routed.present 0 [97] (by decide)) (by decide)

end CoinbaseWsOrderGateway

end SlickSim
