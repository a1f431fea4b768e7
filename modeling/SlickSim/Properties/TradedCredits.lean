import SlickSim.Exchange.Run
import SlickSim.Ledger.Prints
import SlickSim.OrderBook.Reference

/-!
# Traded-quantity credits

Whatever the calls on the credits of a symbol were, taking those of a level returns what was
credited there for later prints and no take has dropped since.
-/

set_option autoImplicit false

namespace SlickSim

inductive CreditCall where
  | credit (side : Side) (price qty : Int) (eventTime : Nat)
  | take (side : Side) (price : Int) (asOf : Nat)
deriving DecidableEq

namespace CreditCall

/-- The call is on the credits of a level. -/
def At (side : Side) (price : Int) : CreditCall → Prop
  | credit otherSide otherPrice _ _ => otherSide = side ∧ otherPrice = price
  | take otherSide otherPrice _ => otherSide = side ∧ otherPrice = price

/-- The call drops what was credited at a level for a print. -/
def Drops (side : Side) (price : Int) (eventTime : Nat) : CreditCall → Prop
  | credit .. => False
  | take otherSide otherPrice asOf => otherSide = side ∧ otherPrice = price ∧ eventTime ≤ asOf

instance (side : Side) (price : Int) : DecidablePred (At side price)
  | credit .. => inferInstanceAs (Decidable (_ ∧ _))
  | take .. => inferInstanceAs (Decidable (_ ∧ _))

instance (side : Side) (price : Int) (eventTime : Nat) : DecidablePred (Drops side price eventTime)
  | credit .. => inferInstanceAs (Decidable False)
  | take .. => inferInstanceAs (Decidable (_ ∧ _ ∧ _))

end CreditCall

/-- What calls credited at a level for prints later than a time, unless one of them
dropped it afterwards. -/
def unreflectedQty (side : Side) (price : Int) (asOf : Nat) : List CreditCall → Int
  | [] => 0
  | .credit otherSide otherPrice qty eventTime :: later =>
      (if otherSide = side ∧ otherPrice = price ∧ 0 < qty ∧ asOf < eventTime ∧
        ∀ call ∈ later, ¬ call.Drops side price eventTime then qty else 0) +
        unreflectedQty side price asOf later
  | .take .. :: later => unreflectedQty side price asOf later

section Calls

variable {side : Side} {price : Int} {asOf : Nat} {calls : List CreditCall}

private theorem kept_append {eventTime : Nat} {last : CreditCall} :
    (∀ call ∈ calls ++ [last], ¬ call.Drops side price eventTime) ↔
      (∀ call ∈ calls, ¬ call.Drops side price eventTime) ∧ ¬ last.Drops side price eventTime := by
  rw [List.forall_mem_append, List.forall_mem_singleton]

theorem unreflectedQty_append_credit (otherSide : Side) (otherPrice qty : Int) (eventTime : Nat) :
    unreflectedQty side price asOf (calls ++ [.credit otherSide otherPrice qty eventTime]) =
      unreflectedQty side price asOf calls +
        if otherSide = side ∧ otherPrice = price ∧ 0 < qty ∧ asOf < eventTime then qty else 0 := by
  induction calls with
  | nil => simp [unreflectedQty]
  | cons call later ih =>
      cases call with
      | take => exact ih
      | credit =>
          rw [List.cons_append, unreflectedQty, unreflectedQty, ih, Int.add_assoc]
          congr 1
          refine if_congr ?_ rfl rfl
          have spares : ∀ time, ¬ CreditCall.Drops side price time (.credit otherSide otherPrice qty eventTime) :=
            fun _ drops => drops
          rw [kept_append, and_iff_left (spares _)]

/-- A take leaves what was credited for prints later than the one it is stamped with. -/
theorem unreflectedQty_append_take (otherSide : Side) (otherPrice : Int) (taken : Nat) :
    unreflectedQty side price asOf (calls ++ [.take otherSide otherPrice taken]) =
      unreflectedQty side price (if otherSide = side ∧ otherPrice = price then max asOf taken else asOf)
        calls := by
  induction calls with
  | nil => rfl
  | cons call later ih =>
      cases call with
      | take => exact ih
      | credit creditSide creditPrice qty eventTime =>
          rw [List.cons_append, unreflectedQty, unreflectedQty, ih]
          congr 1
          refine if_congr ?_ rfl rfl
          rw [kept_append]
          by_cases here : otherSide = side ∧ otherPrice = price
          · have drops : CreditCall.Drops side price eventTime (.take otherSide otherPrice taken) ↔
                eventTime ≤ taken := ⟨fun drops => drops.2.2, fun early => ⟨here.1, here.2, early⟩⟩
            rw [if_pos here, drops, Nat.max_lt]
            constructor
            · rintro ⟨sameSide, samePrice, positive, later, kept, after⟩
              exact ⟨sameSide, samePrice, positive, ⟨later, by omega⟩, kept⟩
            · rintro ⟨sameSide, samePrice, positive, ⟨later, after⟩, kept⟩
              exact ⟨sameSide, samePrice, positive, later, kept, by omega⟩
          · have spares : ¬ CreditCall.Drops side price eventTime (.take otherSide otherPrice taken) :=
              fun drops => here ⟨drops.1, drops.2.1⟩
            rw [if_neg here, and_iff_left spares]

/-- Calls on other levels do not matter. -/
theorem unreflectedQty_filter :
    unreflectedQty side price asOf (calls.filter fun call => call.At side price) =
      unreflectedQty side price asOf calls := by
  induction calls with
  | nil => rfl
  | cons call later ih =>
      cases call with
      | take otherSide otherPrice taken =>
          rw [List.filter_cons]
          split <;> exact ih
      | credit otherSide otherPrice qty eventTime =>
          have sameDrops : (∀ call ∈ later.filter fun call => call.At side price,
                ¬ call.Drops side price eventTime) ↔
              ∀ call ∈ later, ¬ call.Drops side price eventTime := by
            refine ⟨fun none call member drops => none call (List.mem_filter.mpr ⟨member, ?_⟩) drops,
              fun none call member => none call (List.mem_of_mem_filter member)⟩
            cases call with
            | credit => exact absurd drops id
            | take => exact decide_eq_true ⟨drops.1, drops.2.1⟩
          rw [List.filter_cons]
          split <;> rename_i here
          · rw [unreflectedQty, unreflectedQty, ih]
            congr 1
            exact if_congr (by rw [sameDrops]) rfl rfl
          · rw [unreflectedQty, ih, if_neg, Int.zero_add]
            exact fun both => here (decide_eq_true ⟨both.1, both.2.1⟩)

end Calls

namespace Exchange

variable {β : Type} {exchange : Exchange β}

def callCredits (exchange : Exchange β) : CreditCall → Exchange β
  | .credit side price qty eventTime => exchange.creditTradedQty side price qty eventTime
  | .take side price asOf => (exchange.takeTradedQty side price asOf).2

def creditsAt (exchange : Exchange β) (side : BookSide) (price : Int) : List TradedCredit :=
  ((exchange.tradedQtyCredit side).lookup price).getD []

/-- One credit for each time, and no list that is empty. -/
structure CreditsTidy (exchange : Exchange β) : Prop where
  distinct : ∀ side price, ((exchange.creditsAt side price).map TradedCredit.eventTime).Nodup
  filled : ∀ side price, (exchange.tradedQtyCredit side).lookup price ≠ some []

section Step

variable {side : Side} {price qty : Int} {eventTime asOf : Nat}

private theorem addCredit_times (credits : List TradedCredit) :
    (addCredit qty eventTime credits).map TradedCredit.eventTime =
      if eventTime ∈ credits.map TradedCredit.eventTime then credits.map TradedCredit.eventTime
      else credits.map TradedCredit.eventTime ++ [eventTime] := by
  induction credits with
  | nil => rfl
  | cons credit rest ih =>
      unfold addCredit
      by_cases same : credit.eventTime = eventTime
      · rw [if_pos same, if_pos (by rw [List.map_cons, same]; exact List.mem_cons_self)]
        rfl
      · rw [if_neg same, List.map_cons, List.map_cons, ih]
        have later : eventTime ∈ credit.eventTime :: rest.map TradedCredit.eventTime ↔
            eventTime ∈ rest.map TradedCredit.eventTime := by
          rw [List.mem_cons, or_iff_right (Ne.symm same)]
        by_cases held : eventTime ∈ rest.map TradedCredit.eventTime
        · rw [if_pos held, if_pos (later.mpr held)]
        · rw [if_neg held, if_neg fun inside => held (later.mp inside), List.cons_append]

private theorem addCredit_ne_nil (credits : List TradedCredit) : addCredit qty eventTime credits ≠ [] := by
  cases credits with
  | nil => exact List.cons_ne_nil _ _
  | cons credit rest =>
      unfold addCredit
      split <;> exact List.cons_ne_nil _ _

theorem creditTradedQty_lookup (known : side ≠ .unknownSide) (positive : 0 < qty) (bookSide : BookSide)
    (other : Int) :
    ((exchange.creditTradedQty side price qty eventTime).tradedQtyCredit bookSide).lookup other =
      if bookSide = toBookSide side ∧ other = price then
        some (addCredit qty eventTime (exchange.creditsAt bookSide other))
      else (exchange.tradedQtyCredit bookSide).lookup other := by
  unfold creditTradedQty
  rw [if_neg (not_or.mpr ⟨by omega, known⟩)]
  dsimp only
  by_cases sameSide : bookSide = toBookSide side
  · subst sameSide
    rw [Function.update_self]
    by_cases samePrice : other = price
    · subst samePrice
      rw [AList.lookup_insert, if_pos ⟨rfl, rfl⟩]
      rfl
    · rw [AList.lookup_insert_ne samePrice, if_neg fun both => samePrice both.2]
  · rw [Function.update_of_ne sameSide, if_neg fun both => sameSide both.1]

theorem takeTradedQty_lookup (known : side ≠ .unknownSide) (bookSide : BookSide) (other : Int) :
    ((exchange.takeTradedQty side price asOf).2.tradedQtyCredit bookSide).lookup other =
      if bookSide = toBookSide side ∧ other = price then
        match (exchange.creditsAt bookSide other).filter fun credit => asOf < credit.eventTime with
        | [] => none
        | kept => some kept
      else (exchange.tradedQtyCredit bookSide).lookup other := by
  unfold takeTradedQty
  rw [if_neg known]
  dsimp only
  by_cases here : bookSide = toBookSide side ∧ other = price
  · obtain ⟨rfl, rfl⟩ := here
    rw [if_pos ⟨rfl, rfl⟩]
    unfold creditsAt
    cases found : (exchange.tradedQtyCredit (toBookSide side)).lookup other with
    | none => exact found
    | some credits =>
        dsimp only
        rw [Function.update_self, Option.getD_some]
        cases credits.filter fun credit => asOf < credit.eventTime with
        | nil => exact AList.lookup_erase ..
        | cons first rest => exact AList.lookup_insert ..
  · rw [if_neg here]
    cases (exchange.tradedQtyCredit (toBookSide side)).lookup price with
    | none => rfl
    | some credits =>
        dsimp only
        by_cases sameSide : bookSide = toBookSide side
        · subst sameSide
          have samePrice : other ≠ price := fun same => here ⟨rfl, same⟩
          rw [Function.update_self]
          split
          · exact AList.lookup_erase_ne samePrice
          · exact AList.lookup_insert_ne samePrice
        · rw [Function.update_of_ne sameSide]

/-- A level that a call wrote is tidy if what it wrote is. -/
private theorem CreditsTidy.write {after : Exchange β} (tidy : exchange.CreditsTidy)
    (written : ∀ side price,
      (after.tradedQtyCredit side).lookup price = (exchange.tradedQtyCredit side).lookup price ∨
        (after.tradedQtyCredit side).lookup price = none ∨
        ∃ credits, (after.tradedQtyCredit side).lookup price = some credits ∧ credits ≠ [] ∧
          (credits.map TradedCredit.eventTime).Nodup) : after.CreditsTidy where
  distinct := by
    intro side price
    have before := tidy.distinct side price
    unfold creditsAt at before ⊢
    rcases written side price with same | gone | ⟨credits, held, -, distinct⟩
    · rwa [same]
    · rw [gone]
      exact List.nodup_nil
    · rwa [held]
  filled := by
    intro side price
    rcases written side price with same | gone | ⟨credits, held, filled, -⟩
    · rw [same]
      exact tidy.filled side price
    · rw [gone]
      rintro ⟨⟩
    · rw [held]
      exact fun empty => filled (Option.some.inj empty)

theorem CreditsTidy.credit (tidy : exchange.CreditsTidy) :
    (exchange.creditTradedQty side price qty eventTime).CreditsTidy := by
  by_cases ignored : qty ≤ 0 ∨ side = .unknownSide
  · rw [creditTradedQty, if_pos ignored]
    exact tidy
  obtain ⟨positive, known⟩ := not_or.mp ignored
  refine tidy.write fun bookSide other => ?_
  rw [creditTradedQty_lookup known (by omega)]
  split
  · refine .inr (.inr ⟨_, rfl, addCredit_ne_nil _, ?_⟩)
    have before := tidy.distinct bookSide other
    rw [addCredit_times]
    split <;> rename_i held
    · exact before
    · exact List.nodup_append.mpr ⟨before, List.nodup_singleton _, fun time member other single same =>
        held (by rw [← List.mem_singleton.mp single, ← same]; exact member)⟩
  · exact .inl rfl

theorem CreditsTidy.take (tidy : exchange.CreditsTidy) :
    (exchange.takeTradedQty side price asOf).2.CreditsTidy := by
  by_cases known : side = .unknownSide
  · rw [takeTradedQty, if_pos known]
    exact tidy
  refine tidy.write fun bookSide other => ?_
  rw [takeTradedQty_lookup known]
  split
  · have distinct : (((exchange.creditsAt bookSide other).filter fun credit =>
        asOf < credit.eventTime).map TradedCredit.eventTime).Nodup :=
      ((List.filter_sublist).map _).nodup (tidy.distinct bookSide other)
    cases kept : (exchange.creditsAt bookSide other).filter fun credit => asOf < credit.eventTime with
    | nil => exact .inr (.inl rfl)
    | cons first rest => exact .inr (.inr ⟨_, rfl, List.cons_ne_nil _ _, kept ▸ distinct⟩)
  · exact .inl rfl

/-- A take leaves only credits of later prints at its level. -/
theorem takeTradedQty_later (known : side ≠ .unknownSide) :
    ∀ credit ∈ (exchange.takeTradedQty side price asOf).2.creditsAt (toBookSide side) price,
      asOf < credit.eventTime := by
  intro credit member
  unfold creditsAt at member
  rw [takeTradedQty_lookup known, if_pos ⟨rfl, rfl⟩] at member
  cases kept : (exchange.creditsAt (toBookSide side) price).filter fun credit =>
    asOf < credit.eventTime with
  | nil =>
      rw [kept] at member
      cases member
  | cons first rest =>
      rw [kept] at member
      change credit ∈ first :: rest at member
      rw [← kept] at member
      exact of_decide_eq_true (List.mem_filter.mp member).2

end Step

/-! ## Every sequence of calls -/

/-- The credits held are those the calls left. -/
structure CreditsFollow (calls : List CreditCall) (exchange : Exchange β) : Prop where
  positive : exchange.CreditsPositive
  tidy : exchange.CreditsTidy
  held : ∀ side price asOf, side ≠ .unknownSide →
    exchange.heldCredit (toBookSide side) price asOf = unreflectedQty side price asOf calls

private theorem toBookSide_eq_iff {left right : Side} (leftKnown : left ≠ .unknownSide)
    (rightKnown : right ≠ .unknownSide) : toBookSide left = toBookSide right ↔ right = left := by
  cases left <;> cases right <;> simp_all [toBookSide]

theorem CreditsFollow.new (pool : Nat → Order) [OrderBookL3 β] (publishOrderUpdates : Bool) :
    CreditsFollow [] (Exchange.new pool publishOrderUpdates : Exchange β) := by
  have nothing : ∀ side price,
      ((Exchange.new pool publishOrderUpdates : Exchange β).tradedQtyCredit side).lookup price = none :=
    fun _ _ => rfl
  refine ⟨?_, ⟨?_, ?_⟩, ?_⟩
  · intro side price credit member
    rw [nothing] at member
    cases member
  · intro side price
    rw [creditsAt, nothing]
    exact List.nodup_nil
  · intro side price held
    rw [nothing] at held
    cases held
  · intro side price asOf _
    rfl

theorem CreditsFollow.call {calls : List CreditCall} (follows : CreditsFollow calls exchange) (call : CreditCall) :
    CreditsFollow (calls ++ [call]) (exchange.callCredits call) := by
  cases call with
  | credit side price qty eventTime =>
      refine ⟨creditTradedQty_positive follows.positive, follows.tidy.credit, ?_⟩
      intro other otherPrice asOf known
      rw [unreflectedQty_append_credit, ← follows.held other otherPrice asOf known]
      by_cases ignored : qty ≤ 0 ∨ side = .unknownSide
      · rw [callCredits, creditTradedQty, if_pos ignored, if_neg, Int.add_zero]
        rintro ⟨same, -, positive, -⟩
        rcases ignored with small | unknown
        · omega
        · exact known (same.symm.trans unknown)
      · obtain ⟨positive, sideKnown⟩ := not_or.mp ignored
        have sameSide := toBookSide_eq_iff known sideKnown
        rw [callCredits, creditTradedQty_held sideKnown (by omega)]
        congr 1
        split <;> rename_i here
        · split <;> rename_i samePrice
          · rw [if_pos ⟨sameSide.mp here.1, samePrice, by omega, here.2⟩]
          · rw [if_neg fun all => samePrice all.2.1]
        · rw [if_neg fun all => here ⟨sameSide.mpr all.1, all.2.2.2⟩]
  | take side price taken =>
      by_cases sideKnown : side = .unknownSide
      · refine ⟨?_, follows.tidy.take, ?_⟩
        · rw [callCredits, takeTradedQty, if_pos sideKnown]
          exact follows.positive
        · intro other otherPrice asOf known
          rw [unreflectedQty_append_take, if_neg fun here => known (here.1.symm.trans sideKnown), callCredits,
            takeTradedQty, if_pos sideKnown]
          exact follows.held other otherPrice asOf known
      obtain ⟨-, positive, -, held⟩ := @takeTradedQty_held β exchange side price taken sideKnown follows.positive
      refine ⟨positive, follows.tidy.take, ?_⟩
      intro other otherPrice asOf known
      have here : (toBookSide other = toBookSide side ∧ otherPrice = price) ↔ side = other ∧ price = otherPrice :=
        and_congr (toBookSide_eq_iff known sideKnown) eq_comm
      rw [unreflectedQty_append_take, callCredits, held, follows.held _ _ _ known]
      congr 1
      exact if_congr here rfl rfl

theorem CreditsFollow.calls (pool : Nat → Order) [OrderBookL3 β] (publishOrderUpdates : Bool)
    (calls : List CreditCall) :
    CreditsFollow calls (calls.foldl callCredits (Exchange.new pool publishOrderUpdates : Exchange β)) := by
  induction calls using List.reverseRecOn with
  | nil => exact .new pool publishOrderUpdates
  | append_singleton calls call ih =>
      rw [List.foldl_append]
      exact ih.call call

end Exchange

end SlickSim
