import Mathlib.Data.List.Induction
import SlickSim.Gateway.PendingResponses

/-!
# Each waiter is completed at most once

The waiters of the list are, at any depth of nested calls, the ones the log says are
registered. From the log alone it follows that no waiter is completed twice, or after
it was abandoned.
-/

set_option autoImplicit false

namespace SlickSim.PendingResponses

variable {κ : Type}

def Event.Settles (event : Event κ) (id : Nat) : Prop :=
  match event with
  | .added _ => False
  | .completed settled _ => settled = id
  | .abandoned settled => settled = id

/-- The waiters registered after an event. -/
def Event.register (registered : List (Waiter κ)) : Event κ → List (Waiter κ)
  | .added waiter => registered ++ [waiter]
  | .completed id _ => registered.filter fun waiter => waiter.id ≠ id
  | .abandoned id => registered.filter fun waiter => waiter.id ≠ id

/-- The waiters that were added and not completed or abandoned since, as they were added. -/
def registered (log : List (Event κ)) : List (Waiter κ) :=
  log.foldl Event.register []

theorem registered_append (log : List (Event κ)) (event : Event κ) :
    registered (log ++ [event]) = event.register (registered log) :=
  List.foldl_append ..

theorem Event.mem_register {registered : List (Waiter κ)} {event : Event κ} {waiter : Waiter κ} :
    waiter ∈ event.register registered ↔
      waiter ∈ registered ∧ ¬ event.Settles waiter.id ∨ event = .added waiter := by
  cases event with
  | added other => simp [Event.register, Event.Settles, @eq_comm _ waiter other]
  | completed id report => simp [Event.register, Event.Settles, @eq_comm _ waiter.id id]
  | abandoned id => simp [Event.register, Event.Settles, @eq_comm _ waiter.id id]

/-- A registered waiter was added, and nothing that came after settled it. -/
theorem mem_registered {log : List (Event κ)} {waiter : Waiter κ} :
    waiter ∈ registered log ↔ ∃ before after, log = before ++ .added waiter :: after ∧
      ∀ event ∈ after, ¬ event.Settles waiter.id := by
  induction log using List.reverseRecOn with
  | nil =>
      refine iff_of_false (by rintro ⟨⟩) ?_
      rintro ⟨before, after, split, -⟩
      exact List.append_ne_nil_of_right_ne_nil before (List.cons_ne_nil _ _) split.symm
  | append_singleton log event ih =>
      rw [registered_append, Event.mem_register, ih]
      constructor
      · rintro (⟨⟨before, after, rfl, unsettled⟩, spared⟩ | rfl)
        · refine ⟨before, after ++ [event], by rw [List.append_assoc, List.cons_append], ?_⟩
          intro other member
          rcases List.mem_append.mp member with earlier | last
          · exact unsettled other earlier
          · rw [List.mem_singleton.mp last]
            exact spared
        · exact ⟨log, [], rfl, by rintro _ ⟨⟩⟩
      · rintro ⟨before, after, split, unsettled⟩
        rcases List.eq_nil_or_concat after with rfl | ⟨earlier, last, rfl⟩
        · exact .inr (List.singleton_inj.mp (List.append_inj' split rfl).2)
        · rw [List.concat_eq_append, ← List.cons_append, ← List.append_assoc] at split
          obtain ⟨rfl, same⟩ := List.append_inj' split rfl
          obtain rfl := List.singleton_inj.mp same
          rw [List.concat_eq_append] at unsettled
          exact .inl ⟨⟨before, earlier, rfl, fun other member =>
            unsettled other (List.mem_append_left _ member)⟩,
            unsettled event (List.mem_append_right _ (List.mem_singleton_self _))⟩

/-- A log the object can write: new ids rise, and only registered waiters are completed. -/
inductive Lawful : List (Event κ) → Prop
  | nil : Lawful []
  | added {log : List (Event κ)} (lawful : Lawful log) (waiter : Waiter κ)
      (newer : ∀ other, .added other ∈ log → other.id < waiter.id) : Lawful (log ++ [.added waiter])
  | completed {log : List (Event κ)} (lawful : Lawful log) (waiter : Waiter κ)
      (report : Option OrderResponse) (waits : waiter ∈ registered log) :
      Lawful (log ++ [.completed waiter.id report])
  | abandoned {log : List (Event κ)} (lawful : Lawful log) (id : Nat) : Lawful (log ++ [.abandoned id])

def Event.adds (id : Nat) : Event κ → Bool
  | .added waiter => waiter.id = id
  | .completed _ _ | .abandoned _ => false

def Event.completes (id : Nat) : Event κ → Bool
  | .completed settled _ => settled = id
  | .added _ | .abandoned _ => false

/-- How many registered waiters have an id. -/
def waits (log : List (Event κ)) (id : Nat) : Nat :=
  (registered log).countP fun waiter => waiter.id = id

theorem waits_added (log : List (Event κ)) (waiter : Waiter κ) (id : Nat) :
    waits (log ++ [.added waiter]) id = waits log id + if waiter.id = id then 1 else 0 := by
  unfold waits
  rw [registered_append]
  simp [Event.register, List.countP_append, List.countP_singleton]

theorem countP_filter_id (waiters : List (Waiter κ)) (settled id : Nat) :
    (waiters.filter fun waiter => waiter.id ≠ settled).countP (fun waiter => waiter.id = id) =
      if settled = id then 0 else waiters.countP fun waiter => waiter.id = id := by
  rw [List.countP_filter]
  split <;> rename_i same
  · rw [same]
    simp
  · refine List.countP_congr fun waiter _ => ?_
    simp only [Bool.and_eq_true, decide_eq_true_eq]
    exact ⟨fun both => both.1, fun isId => ⟨isId, fun gone => same (gone.symm.trans isId)⟩⟩

theorem waits_completed (log : List (Event κ)) (settled id : Nat) (report : Option OrderResponse) :
    waits (log ++ [.completed settled report]) id = if settled = id then 0 else waits log id := by
  unfold waits
  rw [registered_append]
  exact countP_filter_id ..

theorem waits_abandoned (log : List (Event κ)) (settled id : Nat) :
    waits (log ++ [.abandoned settled]) id = if settled = id then 0 else waits log id := by
  unfold waits
  rw [registered_append]
  exact countP_filter_id ..

namespace Lawful

variable {log : List (Event κ)}

/-- Every completion of an id, and the wait that is still on, has an addition of its own,
and there is at most one. -/
theorem accounted (lawful : Lawful log) (id : Nat) :
    log.countP (Event.completes id) + waits log id ≤ log.countP (Event.adds id) ∧
      log.countP (Event.adds id) ≤ 1 := by
  induction lawful with
  | nil => exact ⟨Nat.le_refl 0, Nat.zero_le 1⟩
  | @added log lawful waiter newer ih =>
      obtain ⟨covered, once⟩ := ih
      have fresh : waiter.id = id → log.countP (Event.adds id) = 0 := by
        intro same
        rw [List.countP_eq_zero]
        intro event member
        cases event with
        | added other =>
            have := newer other member
            simp only [Event.adds, decide_eq_true_eq]
            omega
        | completed _ _ => exact Bool.false_ne_true
        | abandoned _ => exact Bool.false_ne_true
      rw [waits_added, List.countP_append, List.countP_append, List.countP_singleton, List.countP_singleton]
      simp only [Event.adds, Event.completes, decide_eq_true_eq, Bool.false_eq_true, if_false]
      split <;> rename_i same
      · have := fresh same
        omega
      · omega
  | @completed log lawful waiter report waits ih =>
      obtain ⟨covered, once⟩ := ih
      have waiting : waiter.id = id → 0 < PendingResponses.waits log id :=
        fun same => List.countP_pos_iff.mpr ⟨waiter, waits, by simpa using same⟩
      rw [waits_completed, List.countP_append, List.countP_append, List.countP_singleton,
        List.countP_singleton]
      simp only [Event.adds, Event.completes, decide_eq_true_eq, Bool.false_eq_true, if_false]
      split <;> rename_i same
      · have := waiting same
        omega
      · omega
  | @abandoned log lawful settled ih =>
      obtain ⟨covered, once⟩ := ih
      rw [waits_abandoned, List.countP_append, List.countP_append, List.countP_singleton,
        List.countP_singleton]
      simp only [Event.adds, Event.completes, Bool.false_eq_true, if_false]
      split <;> omega

/-- What the log was before its last event, which completes only a waiter that waited. -/
theorem dropLast {event : Event κ} (lawful : Lawful (log ++ [event])) :
    Lawful log ∧ ∀ id report, event = .completed id report → 0 < waits log id := by
  generalize isLog : log ++ [event] = longer at lawful
  cases lawful with
  | nil => exact absurd isLog (List.append_ne_nil_of_right_ne_nil _ (List.cons_ne_nil _ _))
  | added lawful waiter newer =>
      obtain ⟨rfl, same⟩ := List.append_inj' isLog rfl
      obtain rfl := List.singleton_inj.mp same
      exact ⟨lawful, by rintro _ _ ⟨⟩⟩
  | completed lawful waiter report waits =>
      obtain ⟨rfl, same⟩ := List.append_inj' isLog rfl
      obtain rfl := List.singleton_inj.mp same
      refine ⟨lawful, ?_⟩
      rintro _ _ ⟨⟩
      exact List.countP_pos_iff.mpr ⟨waiter, waits, by simp⟩
  | abandoned lawful id =>
      obtain ⟨rfl, same⟩ := List.append_inj' isLog rfl
      obtain rfl := List.singleton_inj.mp same
      exact ⟨lawful, by rintro _ _ ⟨⟩⟩

theorem earlier {more : List (Event κ)} (lawful : Lawful (log ++ more)) : Lawful log := by
  induction more using List.reverseRecOn with
  | nil => rwa [List.append_nil] at lawful
  | append_singleton more event ih =>
      rw [← List.append_assoc] at lawful
      exact ih lawful.dropLast.1

theorem waits_append {more : List (Event κ)} {id : Nat} (none : waits log id = 0)
    (unadded : more.countP (Event.adds id) = 0) : waits (log ++ more) id = 0 := by
  induction more using List.reverseRecOn with
  | nil => rwa [List.append_nil]
  | append_singleton more event ih =>
      rw [List.countP_append, List.countP_singleton] at unadded
      have still := ih (by omega)
      rw [← List.append_assoc]
      cases event with
      | added waiter =>
          have other : waiter.id ≠ id := by
            intro same
            simp [Event.adds, same] at unadded
          rw [waits_added, still, if_neg other]
      | completed settled report => rw [waits_completed, still, ite_self]
      | abandoned settled => rw [waits_abandoned, still, ite_self]

/-- Nothing completes a waiter after it was abandoned. -/
theorem silent {before between after : List (Event κ)} {waiter : Waiter κ}
    (lawful : Lawful (before ++ .added waiter :: between ++ .abandoned waiter.id :: after))
    (report : Option OrderResponse) : .completed waiter.id report ∉ after := by
  intro completed
  obtain ⟨since, later, rfl⟩ := List.append_of_mem completed
  -- At the completion the waiter waited, but the log so far adds it only once, before it was abandoned.
  have split : before ++ Event.added waiter :: between ++ Event.abandoned waiter.id ::
      (since ++ Event.completed waiter.id report :: later) =
      (before ++ Event.added waiter :: between ++ [Event.abandoned waiter.id] ++ since ++
        [Event.completed waiter.id report]) ++ later := by
    simp
  rw [split] at lawful
  obtain ⟨lawful, waited⟩ := lawful.earlier.dropLast
  have once := (lawful.accounted waiter.id).2
  have unadded : since.countP (Event.adds waiter.id) = 0 := by
    have here : Event.adds waiter.id (.added waiter) = true := by simp [Event.adds]
    simp only [List.countP_append, List.countP_cons, here, if_true] at once
    omega
  have none : waits (before ++ Event.added waiter :: between ++ [Event.abandoned waiter.id]) waiter.id = 0 := by
    rw [waits_abandoned, if_pos rfl]
  have still := waits_append none unadded
  have := waited waiter.id report rfl
  omega

end Lawful

/-! ## Runs -/

/-- The list holds the registered waiters, whose ids are no newer than the last one given. -/
structure Machine.Kept (machine : Machine κ) : Prop where
  waiters : machine.pending.waiters = registered machine.log
  lawful : Lawful machine.log
  newest : ∀ waiter, .added waiter ∈ machine.log → waiter.id ≤ machine.pending.nextId

namespace Machine.Kept

variable {machine : Machine κ} {body : κ → Option OrderResponse → Program κ}

theorem start (main : Program κ) : (Machine.start main).Kept :=
  ⟨rfl, .nil, by rintro _ ⟨⟩⟩

/-- Ids are given once, so a registered waiter is the only one of its id. -/
theorem eraseP_eq_filter (kept : machine.Kept) {wanted : Waiter κ → Bool} {waiter : Waiter κ}
    (found : machine.pending.waiters.find? wanted = some waiter) :
    machine.pending.waiters.eraseP wanted =
      machine.pending.waiters.filter fun other => other.id ≠ waiter.id := by
  have once : ∀ id, machine.pending.waiters.countP (fun other => other.id = id) ≤ 1 := by
    intro id
    rw [kept.waiters]
    have := kept.lawful.accounted id
    unfold waits at this
    omega
  generalize machine.pending.waiters = waiters at found once
  induction waiters with
  | nil => cases found
  | cons head rest ih =>
      have restOnce : ∀ id, rest.countP (fun other => other.id = id) ≤ 1 := by
        intro id
        have := once id
        rw [List.countP_cons] at this
        omega
      by_cases isHead : wanted head = true
      · rw [List.find?_cons_of_pos isHead] at found
        obtain rfl := Option.some.inj found
        rw [List.eraseP_cons_of_pos isHead, List.filter_cons_of_neg (by simp)]
        have none : rest.countP (fun other => other.id = head.id) = 0 := by
          have := once head.id
          rw [List.countP_cons_of_pos (by simp)] at this
          omega
        rw [List.countP_eq_zero] at none
        exact (List.filter_eq_self.mpr fun other member => by simpa using none other member).symm
      · rw [List.find?_cons_of_neg isHead] at found
        have other : head.id ≠ waiter.id := by
          intro same
          have := once waiter.id
          have here : 0 < rest.countP (fun other => other.id = waiter.id) :=
            List.countP_pos_iff.mpr ⟨waiter, List.mem_of_find?_eq_some found, by simp⟩
          rw [List.countP_cons_of_pos (by simpa using same)] at this
          omega
        rw [List.eraseP_cons_of_neg isHead, List.filter_cons_of_pos (by simpa using other), ih found restOnce]

theorem complete (kept : machine.Kept) {wanted : Waiter κ → Bool} {waiter : Waiter κ}
    (found : machine.pending.waiters.find? wanted = some waiter) (report : Option OrderResponse)
    (calls : List (Program κ)) :
    Machine.Kept
      { pending := (machine.pending.takeFirst wanted).2, calls
        log := machine.log ++ [.completed waiter.id report] } where
  waiters := by
    rw [registered_append]
    show machine.pending.waiters.eraseP wanted = _
    rw [kept.eraseP_eq_filter found, kept.waiters]
    rfl
  lawful := kept.lawful.completed waiter report (kept.waiters ▸ List.mem_of_find?_eq_some found)
  newest := by
    intro other member
    rcases List.mem_append.mp member with before | last
    · exact kept.newest other before
    · cases List.mem_singleton.mp last

theorem add (kept : machine.Kept) (accepts : OrderResponse → Bool) (complete : κ)
    (calls : List (Program κ)) :
    Machine.Kept
      { pending := (machine.pending.add accepts complete).2, calls
        log := machine.log ++ [.added { id := (machine.pending.add accepts complete).1, accepts, complete }] } where
  waiters := by
    rw [registered_append]
    exact congrArg (· ++ _) kept.waiters
  lawful := by
    refine kept.lawful.added _ fun other member => ?_
    exact Nat.lt_succ_of_le (kept.newest other member)
  newest := by
    intro other member
    rcases List.mem_append.mp member with before | last
    · exact Nat.le_succ_of_le (kept.newest other before)
    · obtain rfl := Event.added.inj (List.mem_singleton.mp last)
      exact Nat.le_refl _

theorem abandon (kept : machine.Kept) (id : Nat) (calls : List (Program κ)) :
    Machine.Kept
      { pending := machine.pending.abandon id, calls, log := machine.log ++ [.abandoned id] } where
  waiters := by
    rw [registered_append]
    show machine.pending.waiters.eraseP _ = (registered machine.log).filter _
    rw [← kept.waiters]
    cases found : machine.pending.waiters.find? fun waiter => waiter.id = id with
    | none =>
        have absent := List.find?_eq_none.mp found
        rw [List.eraseP_of_forall_not absent]
        exact (List.filter_eq_self.mpr fun waiter member => by simpa using absent waiter member).symm
    | some waiter =>
        have isId : waiter.id = id := by simpa using List.find?_some found
        rw [kept.eraseP_eq_filter found, isId]
  lawful := kept.lawful.abandoned id
  newest := by
    intro other member
    rcases List.mem_append.mp member with before | last
    · exact kept.newest other before
    · cases List.mem_singleton.mp last

theorem step (kept : machine.Kept) : (machine.step body).Kept := by
  unfold Machine.step
  split
  · exact kept
  · exact ⟨kept.waiters, kept.lawful, kept.newest⟩
  · exact kept.add ..
  · rename_i response next rest _
    cases found : machine.pending.waiters.find? fun waiter => waiter.accepts response with
    | none =>
        rw [show machine.pending.dispatch response = (none, _) from Prod.ext found rfl]
        exact ⟨kept.waiters, kept.lawful, kept.newest⟩
    | some waiter =>
        rw [show machine.pending.dispatch response = (some waiter, _) from Prod.ext found rfl]
        exact kept.complete found ..
  · rename_i id next rest _
    cases found : machine.pending.waiters.find? fun waiter => waiter.id = id with
    | none =>
        rw [show machine.pending.expire id = (none, _) from Prod.ext found rfl]
        exact ⟨kept.waiters, kept.lawful, kept.newest⟩
    | some waiter =>
        rw [show machine.pending.expire id = (some waiter, _) from Prod.ext found rfl]
        exact kept.complete found ..
  · exact kept.abandon ..
  · exact ⟨kept.waiters, kept.lawful, kept.newest⟩

theorem run (kept : machine.Kept) (calls : Nat) : (machine.run body calls).Kept := by
  induction calls generalizing machine with
  | zero => exact kept
  | succ calls ih => exact ih kept.step

/-- Which call is next, and what it does to the completions. -/
theorem dispatch_eq (kept : machine.Kept) {response : OrderResponse} {next : Bool → Program κ}
    {rest : List (Program κ)} (calling : machine.calls = .dispatch response next :: rest) :
    ((machine.step body).calls, (machine.step body).log) =
      match (registered machine.log).find? fun waiter => waiter.accepts response with
      | some waiter => (body waiter.complete (some response) :: next true :: rest,
          machine.log ++ [.completed waiter.id (some response)])
      | none => (next false :: rest, machine.log) := by
  unfold Machine.step
  rw [calling, ← kept.waiters]
  dsimp only
  cases found : machine.pending.waiters.find? fun waiter => waiter.accepts response with
  | none => rw [show machine.pending.dispatch response = (none, _) from Prod.ext found rfl]
  | some waiter => rw [show machine.pending.dispatch response = (some waiter, _) from Prod.ext found rfl]

theorem expire_eq (kept : machine.Kept) {id : Nat} {next : Program κ} {rest : List (Program κ)}
    (calling : machine.calls = .expire id next :: rest) :
    ((machine.step body).calls, (machine.step body).log) =
      match (registered machine.log).find? fun waiter => waiter.id = id with
      | some waiter => (body waiter.complete none :: next :: rest, machine.log ++ [.completed waiter.id none])
      | none => (next :: rest, machine.log) := by
  unfold Machine.step
  rw [calling, ← kept.waiters]
  dsimp only
  cases found : machine.pending.waiters.find? fun waiter => waiter.id = id with
  | none => rw [show machine.pending.expire id = (none, _) from Prod.ext found rfl]
  | some waiter => rw [show machine.pending.expire id = (some waiter, _) from Prod.ext found rfl]

theorem waiting_iff (kept : machine.Kept) (id : Nat) :
    machine.pending.waiting id = true ↔ ∃ waiter before after,
      waiter.id = id ∧ machine.log = before ++ .added waiter :: after ∧
        ∀ event ∈ after, ¬ event.Settles id := by
  unfold waiting
  rw [List.any_eq_true, kept.waiters]
  constructor
  · rintro ⟨waiter, waits, isId⟩
    obtain rfl : waiter.id = id := by simpa using isId
    obtain ⟨before, after, split, unsettled⟩ := mem_registered.mp waits
    exact ⟨waiter, before, after, rfl, split, unsettled⟩
  · rintro ⟨waiter, before, after, rfl, split, unsettled⟩
    exact ⟨waiter, mem_registered.mpr ⟨before, after, split, unsettled⟩, by simp⟩

end Machine.Kept

/-- However calls nest, after any number of them: no waiter was completed twice, or after it
was abandoned; an id waits when it was added and not settled since; and the next `dispatch`
or `expire` runs the completion of the earliest registered waiter it is for, with the report
or none, or runs none. -/
theorem completions_of_run (body : κ → Option OrderResponse → Program κ) (main : Program κ) (calls : Nat) :
    let machine := (Machine.start main).run body calls
    let after := machine.step body
    (∀ id, machine.log.countP (Event.completes id) ≤ 1) ∧
      (∀ before between later waiter,
        machine.log = before ++ .added waiter :: between ++ .abandoned waiter.id :: later →
        ∀ report, .completed waiter.id report ∉ later) ∧
      (∀ id, machine.pending.waiting id = true ↔ ∃ waiter before later,
        waiter.id = id ∧ machine.log = before ++ .added waiter :: later ∧
          ∀ event ∈ later, ¬ event.Settles id) ∧
      (∀ response next rest, machine.calls = .dispatch response next :: rest →
        (after.calls, after.log) =
          match (registered machine.log).find? fun waiter => waiter.accepts response with
          | some waiter => (body waiter.complete (some response) :: next true :: rest,
              machine.log ++ [.completed waiter.id (some response)])
          | none => (next false :: rest, machine.log)) ∧
      ∀ id next rest, machine.calls = .expire id next :: rest →
        (after.calls, after.log) =
          match (registered machine.log).find? fun waiter => waiter.id = id with
          | some waiter =>
              (body waiter.complete none :: next :: rest, machine.log ++ [.completed waiter.id none])
          | none => (next :: rest, machine.log) := by
  have kept : ((Machine.start main).run body calls).Kept := (Machine.Kept.start main).run calls
  refine ⟨?_, ?_, kept.waiting_iff, fun _ _ _ => kept.dispatch_eq, fun _ _ _ => kept.expire_eq⟩
  · intro id
    have := kept.lawful.accounted id
    omega
  · intro before between later waiter split report
    have lawful := kept.lawful
    rw [split] at lawful
    exact lawful.silent report

end SlickSim.PendingResponses
