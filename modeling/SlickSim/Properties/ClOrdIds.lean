import SlickSim.Gateway.ClOrdIdIndex

/-!
# The ClOrdID index equals its reference

One record per id says the same as the holders and the claims of the reference:
whoever holds an id or claims it, it is one order.
-/

set_option autoImplicit false

namespace SlickSim

/-- What the record of one id says of its holders and claims. -/
def ClOrdIdIndex.Entry.Tracks (entry : Option ClOrdIdIndex.Entry) (holders : Finset Nat)
    (claims : Multiset Nat) : Prop :=
  match entry with
  | none => holders = ∅ ∧ claims = 0
  | some entry => claims = Multiset.replicate entry.claims entry.order ∧
      holders = (if entry.held then {entry.order} else ∅) ∧ (entry.held = true → entry.order ≠ 0) ∧
      (entry.held = true ∨ 0 < entry.claims)

namespace ClOrdIdIndex

variable {κ : Type} [DecidableEq κ] {index : ClOrdIdIndex κ} {model : ClOrdIdClaims κ} {id : κ}
  {orderNum : Nat}

def Tracks (index : ClOrdIdIndex κ) (model : ClOrdIdClaims κ) : Prop :=
  ∀ id, Entry.Tracks (index.ids.lookup id) (model.holders id) (model.claims id)

theorem new_tracks : (new : ClOrdIdIndex κ).Tracks .new := by
  intro id
  rw [show (new : ClOrdIdIndex κ).ids.lookup id = none from AList.lookup_empty id]
  exact ⟨rfl, rfl⟩

/-- A call that changes the record of one id keeps the others. -/
theorem Tracks.change {after : ClOrdIdIndex κ} {later : ClOrdIdClaims κ} (tracks : index.Tracks model)
    (id : κ) (here : Entry.Tracks (after.ids.lookup id) (later.holders id) (later.claims id))
    (lookup : ∀ other, other ≠ id → after.ids.lookup other = index.ids.lookup other)
    (holders : ∀ other, other ≠ id → later.holders other = model.holders other)
    (claims : ∀ other, other ≠ id → later.claims other = model.claims other) : after.Tracks later := by
  intro other
  by_cases same : other = id
  · rw [same]
    exact here
  · rw [lookup other same, holders other same, claims other same]
    exact tracks other

theorem eraseIfUnused_lookup (index : ClOrdIdIndex κ) (id : κ) (entry : Entry) :
    (index.eraseIfUnused id entry).ids.lookup id =
      if entry.claims = 0 ∧ entry.held = false then none else some entry := by
  unfold eraseIfUnused
  split
  · exact AList.lookup_erase id index.ids
  · exact AList.lookup_insert index.ids

theorem eraseIfUnused_lookup_ne (index : ClOrdIdIndex κ) {id other : κ} (entry : Entry) (different : other ≠ id) :
    (index.eraseIfUnused id entry).ids.lookup other = index.ids.lookup other := by
  unfold eraseIfUnused
  split
  · exact AList.lookup_erase_ne different
  · exact AList.lookup_insert_ne different

/-! ## What the record answers -/

/-- Whether a claim succeeds. -/
theorem Tracks.claim_iff (tracks : index.Tracks model) (id : κ) (orderNum : Nat) :
    (index.claim id orderNum).1 = true ↔ model.Grants id orderNum := by
  have here := tracks id
  unfold claim ClOrdIdClaims.Grants
  cases found : index.ids.lookup id with
  | none =>
      rw [found] at here
      obtain ⟨noHolders, noClaims⟩ := here
      rw [noHolders, noClaims]
      simp
  | some entry =>
      rw [found] at here
      obtain ⟨claims, holders, numbered, used⟩ := here
      have owner : entry.order ∈ model.holders id ∨ entry.order ∈ model.claims id := by
        rw [claims, holders]
        rcases used with held | claimed
        · exact .inl (by simp [held])
        · exact .inr (Multiset.mem_replicate.mpr ⟨by omega, rfl⟩)
      have only : ∀ order, order ∈ model.holders id ∨ order ∈ model.claims id → order = entry.order := by
        rintro order (holds | claimed)
        · rw [holders] at holds
          split at holds
          · exact Finset.mem_singleton.mp holds
          · cases holds
        · rw [claims] at claimed
          exact Multiset.eq_of_mem_replicate claimed
      dsimp only
      split <;> rename_i taken
      · refine iff_of_false Bool.false_ne_true ?_
        rintro ⟨byHolders, byClaims⟩
        have mine : orderNum ≠ 0 ∧ entry.order = orderNum :=
          owner.elim (byHolders entry.order) (byClaims entry.order)
        exact taken.elim mine.1 fun different => different mine.2
      · refine iff_of_true rfl ?_
        have mine : orderNum ≠ 0 ∧ entry.order = orderNum :=
          ⟨fun zero => taken (.inl zero), by_contra fun different => taken (.inr different)⟩
        exact ⟨fun order holds => ⟨mine.1, (only order (.inl holds)).trans mine.2⟩,
          fun order claimed => ⟨mine.1, (only order (.inr claimed)).trans mine.2⟩⟩

theorem Tracks.taken_iff (tracks : index.Tracks model) (id : κ) : id ∈ index.ids ↔ model.Taken id := by
  have here := tracks id
  unfold ClOrdIdClaims.Taken
  rw [← AList.lookup_isSome]
  cases found : index.ids.lookup id with
  | none =>
      rw [found] at here
      exact iff_of_false (by simp) fun taken => taken.elim (· here.1) (· here.2)
  | some entry =>
      rw [found] at here
      obtain ⟨claims, holders, -, used⟩ := here
      refine iff_of_true rfl ?_
      rcases used with held | claimed
      · exact .inl (by simp [holders, held])
      · right
        rw [claims]
        intro nothing
        have := congrArg Multiset.card nothing
        rw [Multiset.card_replicate, Multiset.card_zero] at this
        omega

theorem Tracks.find_eq (tracks : index.Tracks model) (id : κ) (order : Nat) :
    order ∈ model.holders id ↔ index.find id = order ∧ order ≠ 0 := by
  have here := tracks id
  unfold find
  cases found : index.ids.lookup id with
  | none =>
      rw [found] at here
      rw [here.1]
      exact iff_of_false (by simp) fun both => both.2 both.1.symm
  | some entry =>
      rw [found] at here
      obtain ⟨-, holders, numbered, -⟩ := here
      rw [holders]
      dsimp only
      cases held : entry.held with
      | false => exact iff_of_false (by simp) fun both => both.2 both.1.symm
      | true =>
          rw [if_pos rfl, if_neg (by decide), Finset.mem_singleton]
          constructor
          · rintro rfl
            exact ⟨rfl, numbered held⟩
          · rintro ⟨rfl, -⟩
            rfl

theorem Tracks.size_eq (tracks : index.Tracks model) :
    ∃ taken : Finset κ, (∀ id, id ∈ taken ↔ model.Taken id) ∧ index.size = taken.card := by
  refine ⟨index.ids.keys.toFinset, fun id => ?_, ?_⟩
  · rw [List.mem_toFinset, ← AList.mem_keys, tracks.taken_iff]
  · rw [List.toFinset_card_of_nodup index.ids.keys_nodup]
    exact (List.length_map ..).symm

/-- An order may take an id only when no other order holds it. -/
theorem Tracks.assignAsserts (tracks : index.Tracks model) (may : model.MayAssign id orderNum) :
    index.AssignAsserts id orderNum := by
  obtain ⟨nonzero, allowed⟩ := may
  refine ⟨nonzero, ?_⟩
  intro entry found
  have here := tracks id
  rw [found] at here
  obtain ⟨claims, holders, numbered, used⟩ := here
  cases held : entry.held with
  | false => exact .inl rfl
  | true =>
      right
      rw [claims, holders, if_pos held] at allowed
      rcases allowed with free | mine | newcomer | mine
      · exact absurd (.inl (by simp [holders, held])) free
      · exact (Multiset.eq_of_mem_replicate mine).symm
      · exact absurd (Multiset.eq_of_mem_replicate newcomer).symm (numbered held)
      · exact (Finset.mem_singleton.mp mine).symm

/-! ## What each call keeps -/

theorem Tracks.claim (tracks : index.Tracks model) (id : κ) (orderNum : Nat) :
    (index.claim id orderNum).2.Tracks (model.claim id orderNum) := by
  have granted := tracks.claim_iff id orderNum
  have here := tracks id
  unfold ClOrdIdIndex.claim at granted ⊢
  unfold ClOrdIdClaims.claim
  cases found : index.ids.lookup id with
  | none =>
      rw [found] at here granted
      rw [if_pos (granted.mp rfl)]
      refine tracks.change id ?_ (fun _ different => AList.lookup_insert_ne different) (fun _ _ => rfl)
        fun _ different => Function.update_of_ne different ..
      dsimp only
      rw [AList.lookup_insert, Function.update_self, here.1, here.2]
      exact ⟨rfl, rfl, (by rintro ⟨⟩), .inr Nat.one_pos⟩
  | some entry =>
      rw [found] at here granted
      dsimp only at granted ⊢
      split at granted <;> rename_i taken
      · rw [if_pos taken, if_neg fun grants => by cases granted.mpr grants]
        exact tracks
      · rw [if_neg taken, if_pos (granted.mp rfl)]
        obtain ⟨claims, holders, numbered, used⟩ := here
        refine tracks.change id ?_ (fun _ different => AList.lookup_insert_ne different) (fun _ _ => rfl)
          fun _ different => Function.update_of_ne different ..
        dsimp only
        rw [AList.lookup_insert, Function.update_self, claims]
        have mine : entry.order = orderNum := by_contra fun different => taken (.inr different)
        refine ⟨?_, holders, numbered, .inr (Nat.succ_pos _)⟩
        rw [← mine]
        exact (Multiset.replicate_succ ..).symm

/-- A record that lost a claim or its holder is written back or goes. -/
theorem tracks_eraseIfUnused {entry : Entry} {holders : Finset Nat} {claims : Multiset Nat}
    (isClaims : claims = Multiset.replicate entry.claims entry.order)
    (isHolders : holders = if entry.held then {entry.order} else ∅)
    (numbered : entry.held = true → entry.order ≠ 0) :
    Entry.Tracks ((index.eraseIfUnused id entry).ids.lookup id) holders claims := by
  rw [eraseIfUnused_lookup]
  split <;> rename_i unused
  · rw [unused.1] at isClaims
    rw [unused.2] at isHolders
    exact ⟨isHolders, isClaims⟩
  · refine ⟨isClaims, isHolders, numbered, ?_⟩
    cases held : entry.held with
    | true => exact .inl rfl
    | false => exact .inr (Nat.pos_of_ne_zero fun none => unused ⟨none, held⟩)

theorem Tracks.release (tracks : index.Tracks model) (claimed : orderNum ∈ model.claims id) :
    (index.release id).Tracks (model.release id orderNum) := by
  have here := tracks id
  unfold ClOrdIdIndex.release ClOrdIdClaims.release
  cases found : index.ids.lookup id with
  | none =>
      rw [found] at here
      rw [here.2] at claimed
      cases claimed
  | some entry =>
      rw [found] at here
      obtain ⟨claims, holders, numbered, -⟩ := here
      rw [claims] at claimed
      obtain ⟨some_claimed, rfl⟩ := Multiset.mem_replicate.mp claimed
      dsimp only
      rw [if_pos (Nat.pos_of_ne_zero some_claimed)]
      refine tracks.change id ?_ (fun _ different => eraseIfUnused_lookup_ne _ _ different) (fun _ _ => rfl)
        fun _ different => Function.update_of_ne different ..
      refine tracks_eraseIfUnused ?_ holders numbered
      dsimp only
      rw [Function.update_self, claims]
      obtain ⟨more, isMore⟩ := Nat.exists_eq_succ_of_ne_zero some_claimed
      rw [isMore, Multiset.replicate_succ, Multiset.erase_cons_head]
      rfl

theorem Tracks.forget (tracks : index.Tracks model) (id : κ) (orderNum : Nat) :
    (index.forget id orderNum).Tracks (model.forget id orderNum) := by
  have here := tracks id
  have unchanged : (∀ order ∈ model.holders id, order ≠ orderNum) → model.forget id orderNum = model := by
    intro others
    unfold ClOrdIdClaims.forget
    rw [Finset.erase_eq_of_notMem fun holds => others orderNum holds rfl, Function.update_eq_self]
  unfold ClOrdIdIndex.forget
  cases found : index.ids.lookup id with
  | none =>
      rw [found] at here
      rw [unchanged (by rw [here.1]; simp)]
      exact tracks
  | some entry =>
      rw [found] at here
      obtain ⟨claims, holders, numbered, used⟩ := here
      dsimp only
      split <;> rename_i mine
      · refine tracks.change id ?_ (fun _ different => eraseIfUnused_lookup_ne _ _ different)
          (fun _ different => Function.update_of_ne different ..) fun _ _ => rfl
        refine tracks_eraseIfUnused claims ?_ (by rintro ⟨⟩)
        show Function.update _ id _ id = _
        rw [Function.update_self, holders, ← mine]
        cases entry.held <;> simp
      · rw [unchanged ?_]
        · exact tracks
        · intro order holds same
          rw [holders] at holds
          split at holds
          · exact mine ((Finset.mem_singleton.mp holds).symm.trans same)
          · cases holds

theorem Tracks.assign (tracks : index.Tracks model) (may : model.MayAssign id orderNum) :
    (index.assign id orderNum).Tracks (model.assign id orderNum) := by
  have asserted := tracks.assignAsserts may
  have here := tracks id
  obtain ⟨nonzero, allowed⟩ := may
  unfold ClOrdIdIndex.assign ClOrdIdClaims.assign
  refine tracks.change id ?_ (fun _ different => AList.lookup_insert_ne different)
    (fun _ different => Function.update_of_ne different ..) fun _ different => Function.update_of_ne different ..
  dsimp only
  rw [AList.lookup_insert, Function.update_self, Function.update_self]
  cases found : index.ids.lookup id with
  | none =>
      rw [found] at here
      rw [here.1, here.2]
      exact ⟨rfl, rfl, fun _ => nonzero, .inl rfl⟩
  | some entry =>
      rw [found] at here
      obtain ⟨claims, holders, numbered, used⟩ := here
      refine ⟨?_, ?_, fun _ => nonzero, .inl rfl⟩
      · rw [claims, Multiset.map_replicate]
        -- A claim of the new order's own request is for the order now.
        by_cases none : entry.claims = 0
        · show _ = Multiset.replicate entry.claims orderNum
          rw [none]
          rfl
        · have owner : (if entry.order = 0 then orderNum else entry.order) = orderNum := by
            rw [claims, holders] at allowed
            split <;> rename_i newcomer
            · rfl
            · rcases allowed with free | mine | isNew | mine
              · refine absurd (.inr ?_) free
                rw [claims]
                intro nothing
                have := congrArg Multiset.card nothing
                rw [Multiset.card_replicate, Multiset.card_zero] at this
                exact none this
              · exact (Multiset.eq_of_mem_replicate mine).symm
              · exact absurd (Multiset.eq_of_mem_replicate isNew).symm newcomer
              · split at mine
                · exact (Finset.mem_singleton.mp mine).symm
                · cases mine
          rw [owner]
          rfl
      · rw [holders]
        show _ = {orderNum}
        rcases asserted.2 entry found with unheld | mine
        · rw [unheld]
          rfl
        · rw [mine]
          split <;> simp

theorem Tracks.step {call : ClOrdIdCall κ} (tracks : index.Tracks model) (allowed : model.Allows call) :
    index.Asserts call ∧ (index.step call).Tracks (model.step call) := by
  cases call with
  | claim id orderNum => exact ⟨trivial, tracks.claim id orderNum⟩
  | release id orderNum => exact ⟨trivial, tracks.release allowed⟩
  | assign id orderNum => exact ⟨tracks.assignAsserts allowed, tracks.assign allowed⟩
  | forget id orderNum => exact ⟨trivial, tracks.forget id orderNum⟩
  | rename old new orderNum =>
      have forgotten := tracks.forget old orderNum
      exact ⟨forgotten.assignAsserts allowed, forgotten.assign allowed⟩

theorem Tracks.run {calls : List (ClOrdIdCall κ)} (tracks : index.Tracks model) (used : model.Uses calls) :
    (index.run calls).Tracks (model.run calls) := by
  induction calls generalizing index model with
  | nil => exact tracks
  | cons call rest ih =>
      obtain ⟨allowed, later⟩ := used
      exact ih (tracks.step allowed).2 later

/-- After any documented use the index answers as the reference does: `find` names the
holder, a claim succeeds when the reference grants it, an id is taken when it has a holder
or an unanswered claim, no two orders hold one id, and the next call's assertions hold. -/
theorem run_meets_reference {calls : List (ClOrdIdCall κ)} (used : (ClOrdIdClaims.new : ClOrdIdClaims κ).Uses calls) :
    let index : ClOrdIdIndex κ := new.run calls
    let model : ClOrdIdClaims κ := ClOrdIdClaims.new.run calls
    (∀ id order, order ∈ model.holders id ↔ index.find id = order ∧ order ≠ 0) ∧
      (∀ id orderNum, (index.claim id orderNum).1 = true ↔ model.Grants id orderNum) ∧
      (∀ id, id ∈ index.ids ↔ model.Taken id) ∧
      (∃ taken : Finset κ, (∀ id, id ∈ taken ↔ model.Taken id) ∧ index.size = taken.card) ∧
      (∀ id, ∀ first ∈ model.holders id, ∀ second ∈ model.holders id, first = second) ∧
      ∀ call, model.Allows call → index.Asserts call := by
  have tracks := new_tracks.run used
  refine ⟨tracks.find_eq, tracks.claim_iff, tracks.taken_iff, tracks.size_eq, ?_,
    fun call allowed => (tracks.step allowed).1⟩
  intro id first isFirst second isSecond
  exact ((tracks.find_eq id first).mp isFirst).1.symm.trans ((tracks.find_eq id second).mp isSecond).1

/-- Two replaces of one order in flight, 42 to 43 and 42 to 42. -/
theorem run_meets_reference_keptId :
    let calls : List (ClOrdIdCall Nat) := [.claim 42 0, .assign 42 7, .release 42 7, .claim 43 7,
      .claim 42 7, .rename 42 43 7, .release 43 7, .rename 43 42 7, .release 42 7]
    let index : ClOrdIdIndex Nat := new.run calls
    let model : ClOrdIdClaims Nat := ClOrdIdClaims.new.run calls
    (∀ id order, order ∈ model.holders id ↔ index.find id = order ∧ order ≠ 0) ∧
      (∀ id orderNum, (index.claim id orderNum).1 = true ↔ model.Grants id orderNum) ∧
      (∀ id, id ∈ index.ids ↔ model.Taken id) ∧
      (∃ taken : Finset Nat, (∀ id, id ∈ taken ↔ model.Taken id) ∧ index.size = taken.card) ∧
      (∀ id, ∀ first ∈ model.holders id, ∀ second ∈ model.holders id, first = second) ∧
      ∀ call, model.Allows call → index.Asserts call :=
  run_meets_reference (by decide)

end ClOrdIdIndex

end SlickSim
