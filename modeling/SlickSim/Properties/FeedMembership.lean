import SlickSim.MdFeed.MulticastPacketFeed

/-!
# Which groups a multicast feed is in

A line is muted, left and rejoined as its latest wish says, and a failed attempt is made
again when its retry time has come. The retry time belongs to one wish: a new wish, or a
start, may be attempted at once.
-/

set_option autoImplicit false

namespace SlickSim

/-- The calls of the exchange thread, a `set_joined` with what the socket answers if it is asked. -/
inductive FeedCall
  | start
  | stop
  | setJoined (line : FeedLine) (joined : Bool) (nowNs : UInt64) (error : Int)

/-- What came of a line since the feed was made, and since it was started. -/
structure LineHistory where
  wish : Option Bool
  /-- The last successful change of membership since the start. -/
  change : Option Bool
  /-- The time of the last failed attempt since the start. -/
  failure : Option UInt64

/-- A call, and whether it attempted a change. -/
def LineHistory.after (line : FeedLine) (history : LineHistory) : FeedCall × Bool → LineHistory
  | (.start, _) => { history with change := none, failure := none }
  | (.stop, _) => history
  | (.setJoined other joined nowNs error, attempted) =>
      if other = line then
        { wish := some joined
          change := if attempted ∧ error = 0 then some joined else history.change
          failure := if attempted ∧ error ≠ 0 then some nowNs else history.failure }
      else history

def MulticastPacketFeed.serve (feed : MulticastPacketFeed) : FeedCall → Bool × MulticastPacketFeed
  | .start => (false, feed.start)
  | .stop => (false, feed.stop)
  | .setJoined line joined nowNs error => feed.setJoined line joined nowNs error

structure FeedSession where
  feed : MulticastPacketFeed
  served : List (FeedCall × Bool)

namespace FeedSession

def step (session : FeedSession) (call : FeedCall) : FeedSession :=
  let result := session.feed.serve call
  { feed := result.2, served := session.served ++ [(call, result.1)] }

def run (calls : List FeedCall) : FeedSession :=
  calls.foldl step { feed := .initial, served := [] }

def history (session : FeedSession) (line : FeedLine) : LineHistory :=
  session.served.foldl (LineHistory.after line) { wish := none, change := none, failure := none }

end FeedSession

/-! ## One line -/

/-- The state of a line is what its history makes of it. -/
structure LineState.Tracks (state : LineState) (history : LineHistory) : Prop where
  wantedLeft : state.wantedLeft = decide (history.wish = some false)
  muted : state.muted = state.wantedLeft
  left : state.left = decide (history.change = some false)
  retryAtNs : state.retryAtNs = 0 ∨ ∃ failed, history.failure = some failed ∧ state.retryAtNs = failed + membershipRetryNs

namespace LineState

variable {state : LineState} {history : LineHistory} {line : FeedLine} {joined : Bool} {nowNs : UInt64} {error : Int}

theorem wish_left : (state.wish joined).left = state.left := by
  rw [wish]
  split <;> rfl

theorem wish_wantedLeft : (state.wish joined).wantedLeft = !joined := by
  rw [wish]
  split
  case isTrue same => exact same
  case isFalse => rfl

theorem wish_steady (same : state.wantedLeft = !joined) : state.wish joined = state :=
  if_pos same

theorem Tracks.wish (tracks : state.Tracks history) : (state.wish joined).muted = !joined ∧
    ((state.wish joined).retryAtNs = 0 ∨
      ∃ failed, history.failure = some failed ∧ (state.wish joined).retryAtNs = failed + membershipRetryNs) := by
  rw [LineState.wish]
  split
  case isTrue same => exact ⟨tracks.muted.trans same, tracks.retryAtNs⟩
  case isFalse => exact ⟨rfl, .inl rfl⟩

/-- A change is attempted only towards a membership that is not there. -/
theorem unmet_of_attempt (attempted : (state.setJoined joined nowNs error).1 = true) : state.left ≠ !joined := by
  rw [setJoined] at attempted
  intro met
  rw [if_pos (.inl (wish_left.trans met))] at attempted
  cases attempted

theorem due_of_attempt (same : state.wantedLeft = !joined) (attempted : (state.setJoined joined nowNs error).1 = true) :
    state.retryAtNs ≤ nowNs := by
  rw [setJoined, wish_steady same] at attempted
  refine UInt64.not_lt.mp fun early => ?_
  rw [if_pos (.inr early)] at attempted
  cases attempted

/-- A failed attempt sets the retry time. -/
theorem retry_of_failure (attempted : (state.setJoined joined nowNs error).1 = true) (failed : error ≠ 0) :
    (state.setJoined joined nowNs error).2.retryAtNs = nowNs + membershipRetryNs := by
  rw [setJoined] at attempted ⊢
  split at attempted
  case isTrue => cases attempted
  case isFalse unsettled => rw [if_neg unsettled, if_pos failed]

/-- An unmet wish is attempted once its last failure is old enough. -/
theorem Tracks.attempt (tracks : state.Tracks history) (unmet : state.left ≠ !joined)
    (due : ∀ failed, history.failure = some failed → failed + membershipRetryNs ≤ nowNs) :
    (state.setJoined joined nowNs error).1 = true := by
  have time : (state.wish joined).retryAtNs ≤ nowNs := by
    rcases (@Tracks.wish state history joined tracks).2 with zero | ⟨failed, isFailed, retry⟩
    · rw [zero]
      exact UInt64.zero_le
    · rw [retry]
      exact due failed isFailed
  rw [setJoined, if_neg]
  · split <;> rfl
  · rintro (met | early)
    · exact unmet (wish_left.symm.trans met)
    · exact absurd early (UInt64.not_lt.mpr time)

theorem setJoined_wantedLeft : (state.setJoined joined nowNs error).2.wantedLeft = !joined := by
  rw [setJoined]
  split
  · exact wish_wantedLeft
  · split <;> exact wish_wantedLeft

/-- An attempt under a standing wish comes when the retry time has passed. -/
theorem steady_waits {due latest : UInt64} (same : state.wantedLeft = !joined) (before : nowNs ≤ latest)
    (waits : due ≤ state.retryAtNs ∨ due ≤ latest) :
    (state.setJoined joined nowNs error).2.wantedLeft = (!joined) ∧
      (due ≤ (state.setJoined joined nowNs error).2.retryAtNs ∨ due ≤ latest) := by
  refine ⟨setJoined_wantedLeft, ?_⟩
  cases attempted : (state.setJoined joined nowNs error).1 with
  | true =>
      have time := due_of_attempt same attempted
      exact .inr (waits.elim (fun due => UInt64.le_trans due (UInt64.le_trans time before)) id)
  | false =>
      have kept : (state.setJoined joined nowNs error).2 = state := by
        rw [setJoined, wish_steady same] at attempted ⊢
        split at attempted
        case isTrue settled => rw [if_pos settled]
        case isFalse => split at attempted <;> cases attempted
      rw [kept]
      exact waits

theorem Tracks.setJoined (tracks : state.Tracks history) : (state.setJoined joined nowNs error).2.Tracks
    (history.after line (.setJoined line joined nowNs error, (state.setJoined joined nowNs error).1)) := by
  obtain ⟨muted, retry⟩ := @Tracks.wish state history joined tracks
  have wanted : (state.wish joined).wantedLeft = decide (some joined = some false) := by
    rw [wish_wantedLeft]
    cases joined <;> rfl
  rw [LineState.setJoined, LineHistory.after, if_pos rfl]
  by_cases settled : (state.wish joined).left = !joined ∨ nowNs < (state.wish joined).retryAtNs
  · rw [if_pos settled, if_neg fun attempted => Bool.false_ne_true attempted.1,
      if_neg fun attempted => Bool.false_ne_true attempted.1]
    exact ⟨wanted, muted.trans wish_wantedLeft.symm, wish_left.trans tracks.left, retry⟩
  · rw [if_neg settled]
    by_cases failed : error ≠ 0
    · rw [if_pos failed, if_neg fun done => failed done.2, if_pos ⟨rfl, failed⟩]
      exact ⟨wanted, muted.trans wish_wantedLeft.symm, wish_left.trans tracks.left, .inr ⟨nowNs, rfl, rfl⟩⟩
    · rw [if_neg failed, if_pos ⟨rfl, not_not.mp failed⟩, if_neg fun failing => failed failing.2]
      refine ⟨wanted, muted.trans wish_wantedLeft.symm, ?_, retry⟩
      cases joined <;> rfl

end LineState

namespace FeedSession

variable {session : FeedSession} {line : FeedLine}

theorem history_step (session : FeedSession) (call : FeedCall) : (session.step call).history line =
    (session.history line).after line (call, (session.feed.serve call).1) := by
  rw [history, step, List.foldl_concat]
  rfl

theorem step_tracks (call : FeedCall) (tracks : (session.feed.lineState line).Tracks (session.history line)) :
    ((session.step call).feed.lineState line).Tracks ((session.step call).history line) := by
  rw [history_step]
  cases call with
  | start =>
      change (session.feed.start.lineState line).Tracks _
      rw [MulticastPacketFeed.lineState_start]
      exact ⟨tracks.wantedLeft, tracks.muted, rfl, .inl rfl⟩
  | stop => exact tracks
  | setJoined other joined nowNs error =>
      by_cases same : other = line
      · subst same
        have served := session.feed.lineState_setJoined other joined nowNs error
        have attempted := congrArg Prod.fst served
        have reached := congrArg Prod.snd served
        dsimp only at attempted reached
        change ((session.feed.setJoined other joined nowNs error).2.lineState other).Tracks
          ((session.history other).after other
            (.setJoined other joined nowNs error, (session.feed.setJoined other joined nowNs error).1))
        rw [attempted, reached]
        exact tracks.setJoined
      · have kept := session.feed.lineState_setJoined_other other line joined nowNs error (Ne.symm same)
        change ((session.feed.setJoined other joined nowNs error).2.lineState line).Tracks _
        rw [kept, LineHistory.after, if_neg same]
        exact tracks

theorem run_tracks (calls : List FeedCall) (line : FeedLine) :
    ((run calls).feed.lineState line).Tracks ((run calls).history line) := by
  induction calls using List.reverseRecOn with
  | nil =>
      have zero : (0 : BitVec 32).getLsbD line = false := BitVec.getLsbD_zero
      exact ⟨zero, rfl, zero, .inl rfl⟩
  | append_singleton calls call ih =>
      rw [run, List.foldl_concat]
      exact step_tracks call ih

/-- What holds of every line after a run, and of every call that may come next. -/
structure KeepsMembership (session : FeedSession) : Prop where
  /-- A line is muted when its latest wish was to leave. -/
  muted : ∀ line : FeedLine, session.feed.isMuted line = true ↔ (session.history line).wish = some false
  left : ∀ line : FeedLine, session.feed.left.getLsbD line = true ↔ (session.history line).change = some false
  /-- Only a membership that is not the wanted one is changed. -/
  attempts : ∀ (line : FeedLine) joined nowNs error, (session.feed.setJoined line joined nowNs error).1 = true →
    session.feed.left.getLsbD line ≠ !joined
  /-- One that is not is attempted, at the latest when the last failure is old enough. -/
  retries : ∀ (line : FeedLine) joined nowNs error, session.feed.left.getLsbD line ≠ !joined →
    (∀ failed, (session.history line).failure = some failed → failed + membershipRetryNs ≤ nowNs) →
      (session.feed.setJoined line joined nowNs error).1 = true
  others : ∀ (line other : FeedLine) joined nowNs error, other ≠ line →
    (session.feed.setJoined line joined nowNs error).2.lineState other = session.feed.lineState other

theorem run_keepsMembership (calls : List FeedCall) : (run calls).KeepsMembership := by
  have tracks := run_tracks calls
  have attempted := fun line joined nowNs error =>
    congrArg Prod.fst ((run calls).feed.lineState_setJoined line joined nowNs error)
  dsimp only at attempted
  constructor
  case muted =>
    intro line
    rw [MulticastPacketFeed.isMuted_eq, (tracks line).muted, (tracks line).wantedLeft, decide_eq_true_iff]
  case left =>
    intro line
    exact Bool.eq_iff_iff.mp (tracks line).left |>.trans decide_eq_true_iff
  case attempts =>
    intro line joined nowNs error attempt
    rw [attempted] at attempt
    exact LineState.unmet_of_attempt attempt
  case retries =>
    intro line joined nowNs error unmet due
    rw [attempted]
    exact (tracks line).attempt unmet due
  case others =>
    intro line other joined nowNs error apart
    exact (run calls).feed.lineState_setJoined_other line other joined nowNs error apart

end FeedSession

/-! ## Retries -/

def FeedCall.time : FeedCall → Option UInt64
  | .setJoined _ _ nowNs _ => some nowNs
  | _ => none

/-- The clock that the calls are given does not run backwards. -/
def Ordered (calls : List FeedCall) : Prop :=
  (calls.filterMap FeedCall.time).Pairwise (· ≤ ·)

private theorem times_setJoined (line : FeedLine) (joined : Bool) (nowNs : UInt64) (error : Int) (calls : List FeedCall) :
    (FeedCall.setJoined line joined nowNs error :: calls).filterMap FeedCall.time =
      nowNs :: calls.filterMap FeedCall.time :=
  rfl

/-- The call neither starts the feed nor wishes anything else for the line. -/
def FeedCall.Steady (line : FeedLine) (joined : Bool) : FeedCall → Prop
  | .start => False
  | .stop => True
  | .setJoined other wished _ _ => other = line → wished = joined

namespace FeedSession

/-- While a wish stands, a retry time stands until the clock passes it. -/
private theorem retry_kept {line : FeedLine} {joined : Bool} {due latest : UInt64} (between : List FeedCall)
    (steady : ∀ call ∈ between, call.Steady line joined)
    (before : ∀ nowNs ∈ between.filterMap FeedCall.time, nowNs ≤ latest) {session : FeedSession}
    (same : (session.feed.lineState line).wantedLeft = !joined)
    (waits : due ≤ (session.feed.lineState line).retryAtNs ∨ due ≤ latest) :
    ((between.foldl step session).feed.lineState line).wantedLeft = (!joined) ∧
      (due ≤ ((between.foldl step session).feed.lineState line).retryAtNs ∨ due ≤ latest) := by
  induction between generalizing session with
  | nil => exact ⟨same, waits⟩
  | cons call between ih =>
      have later := @ih (fun call inside => steady call (List.mem_cons_of_mem _ inside))
        (by
          intro nowNs inside
          refine before nowNs ?_
          rw [List.filterMap_cons]
          split
          · exact inside
          · exact List.mem_cons_of_mem _ inside)
        (session.step call)
      rw [List.foldl_cons]
      cases call with
      | start => exact (steady .start List.mem_cons_self).elim
      | stop => exact later same waits
      | setJoined other wished nowNs error =>
          by_cases isLine : other = line
          · subst isLine
            obtain rfl := steady _ List.mem_cons_self rfl
            have served := congrArg Prod.snd (session.feed.lineState_setJoined other wished nowNs error)
            change (session.step (.setJoined other wished nowNs error)).feed.lineState other = _ at served
            have kept := @LineState.steady_waits _ _ nowNs error due latest same (before nowNs List.mem_cons_self) waits
            rw [← served] at kept
            exact later kept.1 kept.2
          · have kept := session.feed.lineState_setJoined_other other line wished nowNs error (Ne.symm isLine)
            change (session.step (.setJoined other wished nowNs error)).feed.lineState line = _ at kept
            rw [kept] at later
            exact later same waits

/-- After a failed attempt the next one for the same standing wish waits for the retry time. -/
theorem retry_gap {line : FeedLine} {joined : Bool} {first second : UInt64} {error later : Int}
    {past between rest : List FeedCall}
    (ordered : Ordered (past ++ .setJoined line joined first error ::
      (between ++ .setJoined line joined second later :: rest)))
    (failed : ((run past).feed.setJoined line joined first error).1 = true ∧ error ≠ 0)
    (steady : ∀ call ∈ between, call.Steady line joined)
    (again : ((run (past ++ .setJoined line joined first error :: between)).feed.setJoined line joined second later).1 =
      true) : first + membershipRetryNs ≤ second := by
  have before : ∀ nowNs ∈ between.filterMap FeedCall.time, nowNs ≤ second := by
    intro nowNs inside
    rw [Ordered, List.filterMap_append, List.pairwise_append] at ordered
    have tail := ordered.2.1
    rw [times_setJoined, List.filterMap_append, List.pairwise_cons, List.pairwise_append] at tail
    refine tail.2.2.2 nowNs inside second ?_
    rw [times_setJoined]
    exact List.mem_cons_self
  have started := (run past).feed.lineState_setJoined line joined first error
  have attempted := (congrArg Prod.fst started).symm.trans failed.1
  have reached := congrArg Prod.snd started
  change ((run past).step (.setJoined line joined first error)).feed.lineState line = _ at reached
  have kept := @retry_kept line joined (first + membershipRetryNs) second between steady before
    ((run past).step (.setJoined line joined first error))
    (by rw [reached]; exact LineState.setJoined_wantedLeft)
    (.inl (by rw [reached, LineState.retry_of_failure attempted failed.2]; exact UInt64.le_refl _))
  rw [run, List.foldl_append, List.foldl_cons] at again
  change ((between.foldl step ((run past).step (.setJoined line joined first error))).feed.setJoined line joined second
    later).1 = true at again
  have final := (between.foldl step ((run past).step (.setJoined line joined first error))).feed.lineState_setJoined
    line joined second later
  have time := LineState.due_of_attempt kept.1 ((congrArg Prod.fst final).symm.trans again)
  exact kept.2.elim (fun due => UInt64.le_trans due time) id

/-- The membership of every line along every run of calls, and the time between a failed attempt
and the next one, where neither a new wish nor a start comes between the two. -/
theorem membership_kept (calls : List FeedCall) : (run calls).KeepsMembership ∧
    ∀ (line : FeedLine) (joined : Bool) (first second : UInt64) (error later : Int) (past between rest : List FeedCall),
      calls = past ++ .setJoined line joined first error :: (between ++ .setJoined line joined second later :: rest) →
      Ordered calls → (∀ call ∈ between, call.Steady line joined) →
      ((run past).feed.setJoined line joined first error).1 = true ∧ error ≠ 0 →
      ((run (past ++ .setJoined line joined first error :: between)).feed.setJoined line joined second later).1 = true →
      first.toNat + membershipRetryNs.toNat < 2 ^ 64 →
        first.toNat + membershipRetryNs.toNat ≤ second.toNat := by
  refine ⟨run_keepsMembership calls, ?_⟩
  rintro line joined first second error later past between rest rfl ordered steady failed again fits
  have gap := UInt64.le_iff_toNat_le.mp (retry_gap ordered failed steady again)
  rwa [UInt64.toNat_add, Nat.mod_eq_of_lt fits] at gap

/-- A leave that fails twice, the retry time apart. -/
theorem membership_kept_twice :
    let first : FeedCall := .setJoined 1 false 0 5
    let second : FeedCall := .setJoined 1 false 100000000 5
    (run [first, .stop, second]).KeepsMembership ∧
      (0 : UInt64).toNat + membershipRetryNs.toNat ≤ (100000000 : UInt64).toNat := by
  refine ⟨(membership_kept _).1, (membership_kept _).2 1 false 0 100000000 5 5 [] [.stop] [] rfl ?_ ?_ ?_ ?_ ?_⟩
  · exact List.Pairwise.cons (fun _ _ => UInt64.le_iff_toNat_le.mpr (Nat.zero_le _))
      (List.pairwise_singleton _ _)
  · intro call inside
    rw [List.mem_singleton.mp inside]
    trivial
  · exact ⟨by decide, by decide⟩
  · decide
  · decide

/-- The attempts made for a line, with their wish, time and outcome. -/
def attempts (session : FeedSession) (line : FeedLine) : List (Bool × UInt64 × Int) :=
  session.served.filterMap fun served =>
    match served with
    | (.setJoined other joined nowNs error, true) => if other = line then some (joined, nowNs, error) else none
    | _ => none

/-- A wish taken back and made again does not wait for the failure before. -/
theorem not_retry_spaced :
    ¬ ∀ (calls : List FeedCall) (line : FeedLine) (before after : List (Bool × UInt64 × Int)) (joined : Bool)
      (first second : UInt64) (error later : Int), Ordered calls →
      (run calls).attempts line = before ++ (joined, first, error) :: (joined, second, later) :: after →
      error ≠ 0 → later ≠ 0 → first.toNat + membershipRetryNs.toNat ≤ second.toNat := by
  intro every
  have ordered : Ordered [.setJoined 1 false 0 5, .setJoined 1 true 1 0, .setJoined 1 false 2 5] := by
    refine List.Pairwise.cons (fun _ _ => UInt64.le_iff_toNat_le.mpr (Nat.zero_le _))
      (List.Pairwise.cons ?_ (List.pairwise_singleton _ _))
    exact List.forall_mem_singleton.mpr (UInt64.le_iff_toNat_le.mpr (by decide))
  have gap := every [.setJoined 1 false 0 5, .setJoined 1 true 1 0, .setJoined 1 false 2 5] 1 [] [] false 0 2 5 5
    ordered (by decide) (by decide) (by decide)
  exact absurd gap (by decide)

end FeedSession

end SlickSim
