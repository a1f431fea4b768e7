import Mathlib.Algebra.Order.BigOperators.Group.List
import Mathlib.Algebra.Order.Ring.Int
import Mathlib.Data.Finset.Card
import Mathlib.Data.List.Perm.Subperm

/-!
# Sweeping levels

A demand sweeps a queue that is cut into levels, front to back. Some of the items are its own:
those it withdraws and does not take from. What it does with a level it reaches is up to a
splitting policy. All policies that use up a level before the demand moves on take the same
quantity from each level.
-/

set_option autoImplicit false

namespace Sweeping

/-- What a demand does with one item. -/
inductive Act (α : Type) where
  | fill (item : α) (qty : Int)
  | withdraw (item : α)
deriving DecidableEq, Repr

variable {α : Type}

namespace Act

def item : Act α → α
  | fill item _ => item
  | withdraw item => item

def qty : Act α → Int
  | fill _ qty => qty
  | withdraw _ => 0

def filling : Act α → Option (α × Int)
  | fill item qty => some (item, qty)
  | withdraw _ => none

def withdrawing : Act α → Option α
  | fill _ _ => none
  | withdraw item => some item

def isWithdraw : Act α → Bool
  | fill _ _ => false
  | withdraw _ => true

end Act

def fillsIn (acts : List (Act α)) : List (α × Int) :=
  acts.filterMap Act.filling

def withdrawn (acts : List (Act α)) : List α :=
  acts.filterMap Act.withdrawing

def filledQty (acts : List (Act α)) : Int :=
  (acts.map Act.qty).sum

section

variable (size : α → Int) (own : α → Bool)

/-- What items that are not the demand's own offer. -/
def foreignQty (items : List α) : Int :=
  ((items.filter fun item => !own item).map size).sum

/-- A splitting policy: it fills what it can of a level, from other items than the demand's own,
and acts on no item twice. With demand to spare it withdraws all of the demand's own. -/
structure Splits (split : List α → Int → List (Act α)) : Prop where
  total : ∀ {items want}, (∀ item ∈ items, 0 < size item) → 0 < want →
    filledQty (split items want) = min want (foreignQty size own items)
  fills : ∀ {items want item qty}, (∀ item ∈ items, 0 < size item) → 0 < want →
    .fill item qty ∈ split items want → own item = false ∧ 0 < qty ∧ qty ≤ size item
  withdraws : ∀ {items want item}, .withdraw item ∈ split items want → own item = true
  once : ∀ items want, ((split items want).map Act.item).Subperm items
  withdrawn : ∀ {items want item}, (∀ item ∈ items, 0 < size item) → foreignQty size own items < want →
    item ∈ items → own item = true → .withdraw item ∈ split items want

def reached : List (List α) → Int → List (List α)
  | [], _ => []
  | level :: rest, want =>
      if want ≤ 0 then [] else level :: reached rest (want - foreignQty size own level)

/-- Front to back through a level: from each item what it has, until the demand is met. -/
def inOrder : List α → Int → List (Act α)
  | [], _ => []
  | item :: rest, want =>
      if want ≤ 0 then []
      else if own item = true then .withdraw item :: inOrder rest want
      else .fill item (min want (size item)) :: inOrder rest (want - min want (size item))

/-- The fills of a sharing. A share of nothing is no fill. -/
def fillsOf : List (α × Int) → List (Act α)
  | [] => []
  | given :: rest => if given.2 = 0 then fillsOf rest else .fill given.1 given.2 :: fillsOf rest

/-- Withdraws the demand's own items of a level, then shares the demand out among the others. -/
def withdrawThenShare (share : List α → Int → List (α × Int)) (items : List α) (want : Int) :
    List (Act α) :=
  (items.filter own).map .withdraw ++ fillsOf (share (items.filter fun item => !own item) want)

/-- A demand is shared out among items: no item gives more than it has, and all that they can
give is given. -/
structure Shares (share : List α → Int → List (α × Int)) : Prop where
  items : ∀ items want, (share items want).map Prod.fst = items
  within : ∀ {items want}, (∀ item ∈ items, 0 < size item) → 0 < want →
    ∀ given ∈ share items want, 0 ≤ given.2 ∧ given.2 ≤ size given.1
  total : ∀ {items want}, (∀ item ∈ items, 0 < size item) → 0 < want →
    ((share items want).map Prod.snd).sum = min want (items.map size).sum

end

def sweep (split : List α → Int → List (Act α)) : List (List α) → Int → List (Act α)
  | [], _ => []
  | level :: rest, want =>
      if want ≤ 0 then []
      else split level want ++ sweep split rest (want - filledQty (split level want))

/-! ## Quantities -/

@[simp] theorem filledQty_nil : filledQty ([] : List (Act α)) = 0 := rfl

@[simp] theorem filledQty_cons (act : Act α) (acts : List (Act α)) :
    filledQty (act :: acts) = act.qty + filledQty acts :=
  List.sum_cons

@[simp] theorem filledQty_append (first later : List (Act α)) :
    filledQty (first ++ later) = filledQty first + filledQty later := by
  unfold filledQty
  rw [List.map_append, List.sum_append]

theorem fillsIn_append (first later : List (Act α)) : fillsIn (first ++ later) = fillsIn first ++ fillsIn later :=
  List.filterMap_append

theorem withdrawn_append (first later : List (Act α)) :
    withdrawn (first ++ later) = withdrawn first ++ withdrawn later :=
  List.filterMap_append

theorem mem_fillsIn {acts : List (Act α)} {given : α × Int} (member : given ∈ fillsIn acts) :
    .fill given.1 given.2 ∈ acts := by
  obtain ⟨act, inside, filling⟩ := List.mem_filterMap.mp member
  cases act with
  | fill item qty =>
      obtain rfl := Option.some.inj filling
      exact inside
  | withdraw item => cases filling

theorem fillsIn_items (acts : List (Act α)) : ((fillsIn acts).map Prod.fst).Sublist (acts.map Act.item) := by
  induction acts with
  | nil => exact .slnil
  | cons act acts ih =>
      cases act with
      | fill item qty => exact ih.cons_cons _
      | withdraw item => exact ih.cons _

theorem withdrawn_items (acts : List (Act α)) : (withdrawn acts).Sublist (acts.map Act.item) := by
  induction acts with
  | nil => exact .slnil
  | cons act acts ih =>
      cases act with
      | fill item qty => exact ih.cons _
      | withdraw item => exact ih.cons_cons _

theorem mem_withdrawn {acts : List (Act α)} {item : α} : item ∈ withdrawn acts ↔ .withdraw item ∈ acts := by
  unfold withdrawn
  rw [List.mem_filterMap]
  constructor
  · rintro ⟨act, inside, withdrawing⟩
    cases act with
    | fill other qty => cases withdrawing
    | withdraw other => exact Option.some.inj withdrawing ▸ inside
  · exact fun inside => ⟨_, inside, rfl⟩

theorem sum_fillsIn (acts : List (Act α)) : ((fillsIn acts).map Prod.snd).sum = filledQty acts := by
  induction acts with
  | nil => rfl
  | cons act acts ih =>
      rw [filledQty_cons, ← ih]
      cases act with
      | fill item qty => exact List.sum_cons
      | withdraw item => exact (Int.zero_add _).symm

theorem filledQty_withdraws (items : List α) : filledQty (items.map Act.withdraw) = 0 := by
  induction items with
  | nil => rfl
  | cons item rest ih =>
      rw [List.map_cons, filledQty_cons, ih]
      rfl

theorem any_fillsOf (given : List (α × Int)) : (fillsOf given).any Act.isWithdraw = false := by
  induction given with
  | nil => rfl
  | cons head rest ih =>
      unfold fillsOf
      split
      · exact ih
      · exact ih

theorem any_withdraws (own : α → Bool) (items : List α) :
    ((items.filter own).map Act.withdraw).any Act.isWithdraw = items.any own := by
  induction items with
  | nil => rfl
  | cons item rest ih =>
      rw [List.any_cons]
      cases mine : own item with
      | true =>
          rw [List.filter_cons_of_pos mine]
          rfl
      | false =>
          rw [List.filter_cons_of_neg (by rw [mine]; decide), Bool.false_or]
          exact ih

theorem filledQty_fillsOf (given : List (α × Int)) : filledQty (fillsOf given) = (given.map Prod.snd).sum := by
  induction given with
  | nil => rfl
  | cons head rest ih =>
      unfold fillsOf
      rw [List.map_cons, List.sum_cons, ← ih]
      split <;> rename_i nothing
      · rw [nothing, Int.zero_add]
      · exact filledQty_cons ..

theorem mem_fillsOf {given : List (α × Int)} {act : Act α} (member : act ∈ fillsOf given) :
    ∃ item qty, (item, qty) ∈ given ∧ qty ≠ 0 ∧ act = .fill item qty := by
  induction given with
  | nil => cases member
  | cons head rest ih =>
      unfold fillsOf at member
      split at member <;> rename_i nothing
      · obtain ⟨item, qty, inside, some, same⟩ := ih member
        exact ⟨item, qty, List.mem_cons_of_mem _ inside, some, same⟩
      · rcases List.mem_cons.mp member with rfl | member
        · exact ⟨_, _, List.mem_cons_self, nothing, rfl⟩
        · obtain ⟨item, qty, inside, some, same⟩ := ih member
          exact ⟨item, qty, List.mem_cons_of_mem _ inside, some, same⟩

theorem fillsOf_sublist (given : List (α × Int)) :
    ((fillsOf given).map Act.item).Sublist (given.map Prod.fst) := by
  induction given with
  | nil => exact .slnil
  | cons head rest ih =>
      unfold fillsOf
      split
      · exact ih.cons _
      · exact ih.cons_cons _

variable {size : α → Int} {own : α → Bool} {items level : List α} {item : α} {want : Int}
  {levels : List (List α)} {split other : List α → Int → List (Act α)}

theorem foreignQty_cons : foreignQty size own (item :: items) =
    (if own item = true then 0 else size item) + foreignQty size own items := by
  unfold foreignQty
  cases mine : own item with
  | true => simp [mine]
  | false => simp [mine]

theorem foreignQty_append (first later : List α) :
    foreignQty size own (first ++ later) = foreignQty size own first + foreignQty size own later := by
  unfold foreignQty
  rw [List.filter_append, List.map_append, List.sum_append]

theorem foreignQty_nonneg (own : α → Bool) (positive : ∀ item ∈ items, 0 < size item) : 0 ≤ foreignQty size own items := by
  apply List.sum_nonneg
  intro qty member
  obtain ⟨item, inside, rfl⟩ := List.mem_map.mp member
  exact (positive item (List.mem_of_mem_filter inside)).le

theorem foreignQty_of_foreign (foreign : ∀ item ∈ items, own item = false) :
    foreignQty size own items = (items.map size).sum := by
  unfold foreignQty
  rw [List.filter_eq_self.mpr fun item member => by rw [foreign item member]; rfl]

/-! ## Policies -/

theorem withdrawThenShare_foreign {share : List α → Int → List (α × Int)}
    (foreign : ∀ item ∈ items, own item = false) :
    withdrawThenShare own share items want = fillsOf (share items want) := by
  unfold withdrawThenShare
  rw [List.filter_eq_nil_iff.mpr fun item member => by rw [foreign item member]; decide,
    List.filter_eq_self.mpr fun item member => by rw [foreign item member]; rfl]
  rfl

theorem inOrder_of_nonpos (done : want ≤ 0) : inOrder size own items want = [] := by
  cases items with
  | nil => rfl
  | cons item rest => exact if_pos done

theorem inOrder_own (more : 0 < want) (mine : own item = true) :
    inOrder size own (item :: items) want = .withdraw item :: inOrder size own items want := by
  rw [inOrder, if_neg (by omega), if_pos mine]

theorem inOrder_foreign (more : 0 < want) (foreign : own item = false) :
    inOrder size own (item :: items) want =
      .fill item (min want (size item)) :: inOrder size own items (want - min want (size item)) := by
  rw [inOrder, if_neg (by omega), if_neg (by rw [foreign]; decide)]

private theorem positive_tail (positive : ∀ other ∈ item :: items, 0 < size other) :
    0 < size item ∧ ∀ other ∈ items, 0 < size other :=
  List.forall_mem_cons.mp positive

theorem inOrder_congr {other : α → Bool} (same : ∀ item ∈ items, own item = other item) (want : Int) :
    inOrder size own items want = inOrder size other items want := by
  induction items generalizing want with
  | nil => rfl
  | cons item rest ih =>
      obtain ⟨here, below⟩ := List.forall_mem_cons.mp same
      unfold inOrder
      rw [here, ih below, ih below]

theorem inOrder_append (first later : List α) (want : Int) : inOrder size own (first ++ later) want =
    inOrder size own first want ++ inOrder size own later (want - filledQty (inOrder size own first want)) := by
  induction first generalizing want with
  | nil => exact congrArg (inOrder size own later) (Int.sub_zero want).symm
  | cons item rest ih =>
      by_cases done : want ≤ 0
      · rw [List.cons_append, inOrder_of_nonpos done, inOrder_of_nonpos done, filledQty_nil, Int.sub_zero,
          inOrder_of_nonpos done]
        rfl
      cases mine : own item with
      | true =>
          rw [List.cons_append, inOrder_own (by omega) mine, inOrder_own (by omega) mine, ih, filledQty_cons]
          show _ = _ :: (_ ++ inOrder size own later (want - (0 + _)))
          rw [Int.zero_add]
      | false =>
          rw [List.cons_append, inOrder_foreign (by omega) mine, inOrder_foreign (by omega) mine, ih,
            filledQty_cons]
          show _ = _ :: (_ ++ inOrder size own later (want - (min want (size item) + _)))
          rw [← Int.sub_sub]

/-- Taking the items in order is a policy. -/
theorem inOrder_splits (size : α → Int) (own : α → Bool) : Splits size own (inOrder size own) where
  total := by
    intro items want positive more
    induction items generalizing want with
    | nil => exact (min_eq_right more.le).symm
    | cons front rest ih =>
        obtain ⟨sized, others⟩ := positive_tail positive
        have restNonneg := foreignQty_nonneg own others
        rw [foreignQty_cons]
        cases mine : own front with
        | true =>
            rw [inOrder_own more mine, filledQty_cons, ih others more]
            show 0 + _ = min want (0 + _)
            omega
        | false =>
            rw [inOrder_foreign more mine, filledQty_cons]
            show min want (size front) + _ = min want (size front + _)
            by_cases done : want ≤ size front
            · rw [inOrder_of_nonpos (by omega), filledQty_nil]
              omega
            · rw [ih others (by omega)]
              omega
  fills := by
    intro items want item qty positive more member
    induction items generalizing want with
    | nil => cases member
    | cons front rest ih =>
        obtain ⟨sized, others⟩ := positive_tail positive
        cases mine : own front with
        | true =>
            rw [inOrder_own more mine] at member
            rcases List.mem_cons.mp member with same | member
            · cases same
            · exact ih others more member
        | false =>
            rw [inOrder_foreign more mine] at member
            rcases List.mem_cons.mp member with same | member
            · obtain ⟨rfl, rfl⟩ := Act.fill.inj same
              exact ⟨mine, by omega, Int.min_le_right _ _⟩
            · by_cases done : want ≤ size front
              · rw [inOrder_of_nonpos (by omega)] at member
                cases member
              · exact ih others (by omega) member
  withdraws := by
    intro items want item member
    induction items generalizing want with
    | nil => cases member
    | cons front rest ih =>
        by_cases done : want ≤ 0
        · rw [inOrder_of_nonpos done] at member
          cases member
        cases mine : own front with
        | true =>
            rw [inOrder_own (by omega) mine] at member
            rcases List.mem_cons.mp member with same | member
            · rwa [Act.withdraw.inj same]
            · exact ih member
        | false =>
            rw [inOrder_foreign (by omega) mine] at member
            rcases List.mem_cons.mp member with same | member
            · cases same
            · exact ih member
  once := by
    intro items want
    apply List.Sublist.subperm
    induction items generalizing want with
    | nil => exact .slnil
    | cons front rest ih =>
        unfold inOrder
        split
        · exact List.nil_sublist _
        split
        · exact (ih _).cons_cons _
        · exact (ih _).cons_cons _
  withdrawn := by
    intro items want item positive spare member isOwn
    induction items generalizing want with
    | nil => cases member
    | cons front rest ih =>
        obtain ⟨sized, others⟩ := positive_tail positive
        have restNonneg := foreignQty_nonneg own others
        rw [foreignQty_cons] at spare
        cases mine : own front with
        | true =>
            rw [mine] at spare
            change 0 + _ < _ at spare
            rw [inOrder_own (by omega) mine]
            rcases List.mem_cons.mp member with rfl | member
            · exact List.mem_cons_self
            · exact List.mem_cons_of_mem _ (ih others (by omega) member)
        | false =>
            rw [mine] at spare
            change size front + _ < _ at spare
            rw [inOrder_foreign (by omega) mine]
            rcases List.mem_cons.mp member with rfl | member
            · rw [mine] at isOwn
              cases isOwn
            · exact List.mem_cons_of_mem _ (ih others (by omega) member)

/-- Sharing out what is left of a level is a policy. -/
theorem withdrawThenShare_splits {share : List α → Int → List (α × Int)} (shares : Shares size share) :
    Splits size own (withdrawThenShare own share) where
  total := by
    intro items want positive more
    have others : ∀ item ∈ items.filter fun item => !own item, 0 < size item :=
      fun item member => positive item (List.mem_of_mem_filter member)
    unfold withdrawThenShare foreignQty
    rw [filledQty_append, filledQty_withdraws, filledQty_fillsOf, shares.total others more, Int.zero_add]
  fills := by
    intro items want item qty positive more member
    have others : ∀ item ∈ items.filter fun item => !own item, 0 < size item :=
      fun item member => positive item (List.mem_of_mem_filter member)
    rcases List.mem_append.mp member with withdrawn | filled
    · obtain ⟨_, _, same⟩ := List.mem_map.mp withdrawn
      cases same
    · obtain ⟨_, _, given, some, same⟩ := mem_fillsOf filled
      obtain ⟨rfl, rfl⟩ := Act.fill.inj same
      obtain ⟨nonneg, fits⟩ := shares.within others more _ given
      have inside : item ∈ items.filter fun item => !own item := by
        rw [← shares.items (items.filter fun item => !own item) want]
        exact List.mem_map.mpr ⟨_, given, rfl⟩
      refine ⟨?_, lt_of_le_of_ne nonneg (Ne.symm some), fits⟩
      simpa using (List.mem_filter.mp inside).2
  withdraws := by
    intro items want item member
    rcases List.mem_append.mp member with withdrawn | filled
    · obtain ⟨_, inside, same⟩ := List.mem_map.mp withdrawn
      rw [← Act.withdraw.inj same]
      exact (List.mem_filter.mp inside).2
    · obtain ⟨_, _, _, _, same⟩ := mem_fillsOf filled
      cases same
  once := by
    intro items want
    unfold withdrawThenShare
    rw [List.map_append, List.map_map]
    have fills := fillsOf_sublist (share (items.filter fun item => !own item) want)
    rw [shares.items] at fills
    have whole : (items.filter own ++ items.filter fun item => !own item).Perm items :=
      List.filter_append_perm own items
    refine (List.Sublist.subperm ?_).trans whole.subperm
    rw [show List.map (Act.item ∘ Act.withdraw) (items.filter own) = items.filter own from List.map_id _]
    exact fills.append_left _
  withdrawn := by
    intro items want item _ _ member mine
    exact List.mem_append_left _ (List.mem_map.mpr ⟨item, List.mem_filter.mpr ⟨member, mine⟩, rfl⟩)

/-! ## Sweeps -/

theorem sweep_of_nonpos (done : want ≤ 0) : sweep split levels want = [] := by
  cases levels with
  | nil => rfl
  | cons level rest => exact if_pos done

theorem sweep_cons (more : 0 < want) : sweep split (level :: levels) want =
    split level want ++ sweep split levels (want - filledQty (split level want)) :=
  if_neg (by omega)

/-- Withdrawing comes first on a level, and then what is left of the level is swept. -/
theorem sweep_withdrawn {share : List α → Int → List (α × Int)} (shares : Shares size share) (more : 0 < want) :
    sweep (withdrawThenShare own share) (level :: levels) want =
      (level.filter own).map .withdraw ++ sweep (withdrawThenShare own share)
        ((if level.filter (fun item => !own item) = [] then [] else [level.filter fun item => !own item]) ++
          levels) want := by
  have foreign : ∀ item ∈ level.filter (fun item => !own item), own item = false := by
    intro item member
    simpa using (List.mem_filter.mp member).2
  have left : filledQty (withdrawThenShare own share level want) =
      filledQty (fillsOf (share (level.filter fun item => !own item) want)) := by
    rw [withdrawThenShare, filledQty_append, filledQty_withdraws, Int.zero_add]
  rw [sweep_cons more, left, withdrawThenShare, List.append_assoc]
  congr 1
  generalize level.filter (fun item => !own item) = others at foreign ⊢
  split <;> rename_i some
  · have none_shared : share others want = [] := by
      rw [← List.map_eq_nil_iff, shares.items, some]
    rw [none_shared]
    show sweep _ levels (want - 0) = _
    rw [Int.sub_zero]
    rfl
  · rw [List.singleton_append, sweep_cons more, withdrawThenShare_foreign foreign]

/-- Where items are taken in order, levels do not matter. -/
theorem sweep_inOrder (levels : List (List α)) (want : Int) :
    sweep (inOrder size own) levels want = inOrder size own levels.flatten want := by
  induction levels generalizing want with
  | nil => rfl
  | cons level rest ih =>
      rw [List.flatten_cons, inOrder_append, ← ih]
      by_cases done : want ≤ 0
      · rw [sweep_of_nonpos done, inOrder_of_nonpos done, filledQty_nil, Int.sub_zero, sweep_of_nonpos done]
        rfl
      · exact sweep_cons (by omega)

theorem reached_of_nonpos (done : want ≤ 0) : reached size own levels want = [] := by
  cases levels with
  | nil => rfl
  | cons level rest => exact if_pos done

theorem reached_cons (more : 0 < want) : reached size own (level :: levels) want =
    level :: reached size own levels (want - foreignQty size own level) :=
  if_neg (by omega)

theorem reached_subset : ∀ level ∈ reached size own levels want, level ∈ levels := by
  induction levels generalizing want with
  | nil => exact fun _ member => member
  | cons first rest ih =>
      intro level member
      unfold reached at member
      split at member
      · cases member
      · rcases List.mem_cons.mp member with rfl | member
        · exact List.mem_cons_self
        · exact List.mem_cons_of_mem _ (ih level member)

private theorem positive_levels (positive : ∀ other ∈ level :: levels, ∀ item ∈ other, 0 < size item) :
    (∀ item ∈ level, 0 < size item) ∧ ∀ other ∈ levels, ∀ item ∈ other, 0 < size item :=
  List.forall_mem_cons.mp positive

/-- What follows a level is swept with what that level left of the demand. -/
theorem sweep_cons_eq (splits : Splits size own split)
    (positive : ∀ other ∈ level :: levels, ∀ item ∈ other, 0 < size item)
    (more : 0 < want) : sweep split (level :: levels) want =
      split level want ++ sweep split levels (want - foreignQty size own level) := by
  obtain ⟨here, -⟩ := positive_levels positive
  rw [sweep_cons more, splits.total here more]
  by_cases met : want ≤ foreignQty size own level
  · rw [sweep_of_nonpos (by omega), sweep_of_nonpos (by omega)]
  · rw [Int.min_eq_right (by omega)]

section Sweep

variable (splits : Splits size own split) (positive : ∀ level ∈ levels, ∀ item ∈ level, 0 < size item)

include splits positive

/-- A sweep fills the demand as far as the levels can. -/
theorem sweep_total (nonneg : 0 ≤ want) :
    filledQty (sweep split levels want) = min want (foreignQty size own levels.flatten) := by
  induction levels generalizing want with
  | nil => exact (min_eq_right nonneg).symm
  | cons level rest ih =>
      obtain ⟨here, others⟩ := positive_levels positive
      have hereNonneg := foreignQty_nonneg own here
      have restNonneg : 0 ≤ foreignQty size own rest.flatten := by
        apply foreignQty_nonneg own
        intro item member
        obtain ⟨other, inside, member⟩ := List.mem_flatten.mp member
        exact others other inside item member
      rw [List.flatten_cons, foreignQty_append]
      by_cases done : want ≤ 0
      · rw [sweep_of_nonpos done, filledQty_nil]
        omega
      rw [sweep_cons (by omega), filledQty_append, splits.total here (by omega), ih others (by omega)]
      omega

theorem mem_sweep {act : Act α} (member : act ∈ sweep split levels want) :
    ∃ level ∈ reached size own levels want, ∃ left, 0 < left ∧ left ≤ want ∧ act ∈ split level left := by
  induction levels generalizing want with
  | nil => cases member
  | cons level rest ih =>
      obtain ⟨here, others⟩ := positive_levels positive
      by_cases done : want ≤ 0
      · rw [sweep_of_nonpos done] at member
        cases member
      have more : 0 < want := by omega
      rw [sweep_cons_eq splits positive more] at member
      rw [reached_cons more]
      rcases List.mem_append.mp member with member | member
      · exact ⟨level, List.mem_cons_self, want, more, le_rfl, member⟩
      · obtain ⟨other, inside, left, some, fewer, member⟩ := ih others member
        have := foreignQty_nonneg own here
        exact ⟨other, List.mem_cons_of_mem _ inside, left, some, by omega, member⟩

/-- Nothing is acted on twice. -/
theorem sweep_once (want : Int) : ((sweep split levels want).map Act.item).Subperm levels.flatten := by
  induction levels generalizing want with
  | nil => exact List.Subperm.refl _
  | cons level rest ih =>
      obtain ⟨-, others⟩ := positive_levels positive
      by_cases done : want ≤ 0
      · rw [sweep_of_nonpos done]
        exact List.nil_subperm
      rw [sweep_cons (by omega), List.map_append, List.flatten_cons]
      exact (splits.once level want).append (ih others _)

/-- A sweep goes through the items as the levels are ranked. -/
theorem sweep_pairwise {ranks : α → α → Prop} (within : ∀ level ∈ levels, ∀ first ∈ level, ∀ later ∈ level, ranks first later)
    (across : levels.Pairwise fun before behind => ∀ first ∈ before, ∀ later ∈ behind, ranks first later) (want : Int) :
    ((sweep split levels want).map Act.item).Pairwise ranks := by
  induction levels generalizing want with
  | nil => exact .nil
  | cons level rest ih =>
      obtain ⟨here, below⟩ := List.forall_mem_cons.mp within
      obtain ⟨ahead, behind⟩ := List.pairwise_cons.mp across
      obtain ⟨-, others⟩ := positive_levels positive
      have items : ∀ item ∈ (split level want).map Act.item, item ∈ level := (splits.once level want).subset
      by_cases done : want ≤ 0
      · rw [sweep_of_nonpos done]
        exact .nil
      rw [sweep_cons (by omega), List.map_append, List.pairwise_append]
      refine ⟨List.pairwise_of_forall_mem_list fun first isFirst later isLater =>
        here first (items first isFirst) later (items later isLater), ih others below behind _, ?_⟩
      intro first isFirst later isLater
      obtain ⟨other, inside, member⟩ := List.mem_flatten.mp ((sweep_once splits others _).subset isLater)
      exact ahead other inside first (items first isFirst) later member

/-- Two policies that agree on every level that is reached sweep alike. -/
theorem sweep_congr
    (agree : ∀ level ∈ reached size own levels want, ∀ left, 0 < left → split level left = other level left) :
    sweep split levels want = sweep other levels want := by
  induction levels generalizing want with
  | nil => rfl
  | cons level rest ih =>
      obtain ⟨here, others⟩ := positive_levels positive
      by_cases done : want ≤ 0
      · rw [sweep_of_nonpos done, sweep_of_nonpos done]
      have more : 0 < want := by omega
      rw [reached_cons more] at agree
      have same := agree level List.mem_cons_self want more
      rw [sweep_cons more, sweep_cons more, ← same]
      congr 1
      have total := splits.total here more
      by_cases met : want ≤ foreignQty size own level
      · rw [sweep_of_nonpos (by omega), sweep_of_nonpos (by omega)]
      · rw [total, Int.min_eq_right (by omega)]
        exact ih others fun next inside => agree next (List.mem_cons_of_mem _ inside)

end Sweep

/-! ## Any two policies -/

section Compare

variable {act : Act α}

def takeWhole (size : α → Int) (own : α → Bool) (item : α) : Act α :=
  if own item = true then .withdraw item else .fill item (size item)

theorem takeWhole_item (size : α → Int) (own : α → Bool) (item : α) : (takeWhole size own item).item = item := by
  unfold takeWhole
  split <;> rfl

/-- A policy fills all of what it may when the demand is for no less. -/
private theorem Splits.fills_all (splits : Splits size own split) (positive : ∀ item ∈ items, 0 < size item)
    (more : 0 < want) (enough : foreignQty size own items ≤ want) :
    (items.filter fun item => !own item).Perm ((fillsIn (split items want)).map Prod.fst) ∧
      ∀ given ∈ fillsIn (split items want), given.2 = size given.1 := by
  have fills : ∀ given ∈ fillsIn (split items want), own given.1 = false ∧ 0 < given.2 ∧ given.2 ≤ size given.1 :=
    fun given member => splits.fills positive more (mem_fillsIn member)
  have some : ((fillsIn (split items want)).map Prod.fst).Subperm (items.filter fun item => !own item) := by
    have sub := (((fillsIn_items _).subperm).trans (splits.once items want)).filter fun item => !own item
    rwa [List.filter_eq_self.mpr] at sub
    intro item member
    obtain ⟨given, isGiven, rfl⟩ := List.mem_map.mp member
    rw [(fills given isGiven).1]
    rfl
  obtain ⟨taken, perm, sub⟩ := some
  obtain ⟨left, whole⟩ := sub.exists_perm_append
  -- What is filled comes to all that is offered, so nothing is left out and nothing is filled partly.
  have total := splits.total positive more
  rw [Int.min_eq_right enough, ← sum_fillsIn] at total
  have offered : foreignQty size own items =
      ((fillsIn (split items want)).map fun given => size given.1).sum + (left.map size).sum := by
    unfold foreignQty
    rw [(whole.map size).sum_eq, List.map_append, List.sum_append, (perm.map size).sum_eq, List.map_map]
    rfl
  have leftPositive : ∀ qty ∈ left.map size, 0 < qty := by
    intro qty member
    obtain ⟨item, isLeft, rfl⟩ := List.mem_map.mp member
    exact positive item (List.mem_of_mem_filter (whole.mem_iff.mpr (List.mem_append_right _ isLeft)))
  have leftNonneg : 0 ≤ (left.map size).sum := List.sum_nonneg fun qty member => (leftPositive qty member).le
  have sized : ((fillsIn (split items want)).map Prod.snd).sum ≤
      ((fillsIn (split items want)).map fun given => size given.1).sum :=
    List.sum_le_sum fun given member => (fills given member).2.2
  constructor
  · have nothing : left = [] := by
      by_contra someLeft
      have := List.sum_pos _ leftPositive (by simpa using someLeft)
      omega
    rw [nothing, List.append_nil] at whole
    exact whole.trans perm
  · intro given member
    by_contra different
    have : ((fillsIn (split items want)).map Prod.snd).sum <
        ((fillsIn (split items want)).map fun given => size given.1).sum :=
      List.sum_lt_sum _ _ (fun given member => (fills given member).2.2)
        ⟨given, member, lt_of_le_of_ne (fills given member).2.2 different⟩
    omega

/-- A level that does not meet the demand is taken whole. -/
theorem Splits.spare (splits : Splits size own split) (positive : ∀ item ∈ items, 0 < size item)
    (more : 0 < want) (spare : foreignQty size own items < want) :
    act ∈ split items want ↔ ∃ item ∈ items, act = takeWhole size own item := by
  obtain ⟨all, whole⟩ := splits.fills_all positive more spare.le
  constructor
  · intro member
    refine ⟨act.item, (splits.once items want).subset (List.mem_map_of_mem member), ?_⟩
    cases act with
    | fill item qty =>
        have foreign := (splits.fills positive more member).1
        have isFill : (item, qty) ∈ fillsIn (split items want) := List.mem_filterMap.mpr ⟨_, member, rfl⟩
        exact (congrArg (Act.fill item) (whole _ isFill)).trans
          (if_neg (show ¬ own item = true by rw [foreign]; decide)).symm
    | withdraw item => exact (if_pos (splits.withdraws member)).symm
  · rintro ⟨item, member, rfl⟩
    unfold takeWhole
    split <;> rename_i mine
    · exact splits.withdrawn positive spare member mine
    · have isForeign : item ∈ items.filter fun item => !own item :=
        List.mem_filter.mpr ⟨member, by simpa using mine⟩
      obtain ⟨given, isGiven, rfl⟩ := List.mem_map.mp (all.mem_iff.mp isForeign)
      rw [← whole given isGiven]
      exact mem_fillsIn isGiven

/-- The level on which a demand is met, if it is met. -/
def metOn (size : α → Int) (own : α → Bool) : List (List α) → Int → List α
  | [], _ => []
  | level :: rest, want =>
      if want ≤ 0 then [] else
      if want ≤ foreignQty size own level then level else metOn size own rest (want - foreignQty size own level)

theorem metOn_mem (size : α → Int) (own : α → Bool) (levels : List (List α)) (want : Int) :
    metOn size own levels want = [] ∨ metOn size own levels want ∈ levels := by
  induction levels generalizing want with
  | nil => exact .inl rfl
  | cons level rest ih =>
      unfold metOn
      split
      · exact .inl rfl
      split
      · exact .inr List.mem_cons_self
      · exact (ih _).imp id (List.mem_cons_of_mem level)

/-- Off the level on which the demand is met, all policies act alike. -/
theorem mem_sweep_congr (splits : Splits size own split) (others : Splits size own other)
    (positive : ∀ level ∈ levels, ∀ item ∈ level, 0 < size item) (off : act.item ∉ metOn size own levels want) :
    act ∈ sweep split levels want ↔ act ∈ sweep other levels want := by
  induction levels generalizing want with
  | nil => exact Iff.rfl
  | cons level rest ih =>
      obtain ⟨here, below⟩ := List.forall_mem_cons.mp positive
      by_cases done : want ≤ 0
      · rw [sweep_of_nonpos done, sweep_of_nonpos done]
      have more : 0 < want := by omega
      rw [sweep_cons_eq splits positive more, sweep_cons_eq others positive more]
      rw [metOn, if_neg done] at off
      by_cases met : want ≤ foreignQty size own level
      · rw [if_pos met] at off
        have outside : ∀ {policy : List α → Int → List (Act α)}, Splits size own policy → act ∉ policy level want :=
          fun policy member => off ((policy.once level want).subset (List.mem_map_of_mem member))
        rw [sweep_of_nonpos (by omega), sweep_of_nonpos (by omega), List.append_nil, List.append_nil]
        exact iff_of_false (outside splits) (outside others)
      · rw [if_neg met] at off
        rw [List.mem_append, List.mem_append, splits.spare here more (by omega), others.spare here more (by omega),
          ih below off]

def filledOf (kind : α → Bool) (acts : List (Act α)) : Int :=
  (((fillsIn acts).filter fun given => kind given.1).map Prod.snd).sum

theorem filledOf_append (kind : α → Bool) (first later : List (Act α)) :
    filledOf kind (first ++ later) = filledOf kind first + filledOf kind later := by
  unfold filledOf
  rw [fillsIn_append, List.filter_append, List.map_append, List.sum_append]

theorem filledOf_fill (kind : α → Bool) (item : α) (qty : Int) :
    filledOf kind [.fill item qty] = if kind item then qty else 0 := by
  unfold filledOf
  rw [show fillsIn [Act.fill item qty] = [(item, qty)] from rfl, List.filter_singleton]
  cases kind item with
  | true => exact Int.add_zero qty
  | false => rfl

theorem filledOf_withdraw (kind : α → Bool) (item : α) : filledOf kind [.withdraw item] = 0 := rfl

/-- Where levels are of one kind each, all policies fill alike of every kind. -/
theorem sweep_filledOf (splits : Splits size own split) (others : Splits size own other)
    (positive : ∀ level ∈ levels, ∀ item ∈ level, 0 < size item) (kind : α → Bool)
    (uniform : ∀ level ∈ levels, ∃ isKind, ∀ item ∈ level, kind item = isKind) :
    filledOf kind (sweep split levels want) = filledOf kind (sweep other levels want) := by
  induction levels generalizing want with
  | nil => rfl
  | cons level rest ih =>
      obtain ⟨here, below⟩ := List.forall_mem_cons.mp positive
      obtain ⟨⟨isKind, same⟩, uniform⟩ := List.forall_mem_cons.mp uniform
      by_cases done : want ≤ 0
      · rw [sweep_of_nonpos done, sweep_of_nonpos done]
      have more : 0 < want := by omega
      rw [sweep_cons_eq splits positive more, sweep_cons_eq others positive more, filledOf_append, filledOf_append,
        ih below uniform]
      have level_kind : ∀ {policy : List α → Int → List (Act α)}, Splits size own policy →
          filledOf kind (policy level want) = if isKind then min want (foreignQty size own level) else 0 := by
        intro policy splits
        have items : ∀ given ∈ fillsIn (policy level want), kind given.1 = isKind := fun given member =>
          same _ ((splits.once level want).subset (List.mem_map_of_mem (mem_fillsIn member)))
        unfold filledOf
        cases isKind with
        | true => rw [List.filter_eq_self.mpr items, sum_fillsIn, splits.total here more]; rfl
        | false =>
            rw [List.filter_eq_nil_iff.mpr fun given member => by rw [items given member]; decide]
            rfl
      rw [level_kind splits, level_kind others]

end Compare

/-! ## What is withdrawn -/

/-- A demand that withdraws before it shares withdraws all of its own on the levels it reaches. -/
theorem withdraw_mem_sweep {share : List α → Int → List (α × Int)} (shares : Shares size share)
    (positive : ∀ level ∈ levels, ∀ item ∈ level, 0 < size item) :
    .withdraw item ∈ sweep (withdrawThenShare own share) levels want ↔
      ∃ level ∈ reached size own levels want, item ∈ level ∧ own item = true := by
  have splits : Splits size own (withdrawThenShare own share) := withdrawThenShare_splits shares
  have here : ∀ level left, .withdraw item ∈ withdrawThenShare own share level left ↔ item ∈ level ∧ own item = true := by
    intro level left
    unfold withdrawThenShare
    rw [List.mem_append, List.mem_map]
    constructor
    · rintro (⟨other, inside, same⟩ | filled)
      · rw [← Act.withdraw.inj same]
        exact List.mem_filter.mp inside
      · obtain ⟨_, _, _, _, same⟩ := mem_fillsOf filled
        cases same
    · exact fun both => .inl ⟨item, List.mem_filter.mpr both, rfl⟩
  induction levels generalizing want with
  | nil => exact iff_of_false (List.not_mem_nil) (by rintro ⟨_, member, -⟩; cases member)
  | cons level rest ih =>
      obtain ⟨sized, below⟩ := List.forall_mem_cons.mp positive
      by_cases done : want ≤ 0
      · rw [sweep_of_nonpos done, reached_of_nonpos done]
        exact iff_of_false (List.not_mem_nil) (by rintro ⟨_, member, -⟩; cases member)
      have more : 0 < want := by omega
      have later : .withdraw item ∈ sweep (withdrawThenShare own share) rest (want - foreignQty size own level) ↔
          ∃ other ∈ reached size own rest (want - foreignQty size own level), item ∈ other ∧ own item = true :=
        ih below
      rw [sweep_cons_eq splits positive more, reached_cons more, List.mem_append, later, here,
        List.exists_mem_cons_iff]

/-- A demand that goes in order withdraws those of its own that it comes to before it is met. -/
theorem withdraw_mem_inOrder (positive : ∀ item ∈ items, 0 < size item) :
    .withdraw item ∈ inOrder size own items want ↔
      ∃ front back, items = front ++ item :: back ∧ own item = true ∧ foreignQty size own front < want := by
  induction items generalizing want with
  | nil =>
      refine iff_of_false (List.not_mem_nil) ?_
      rintro ⟨front, back, cut, -⟩
      simp at cut
  | cons first rest ih =>
      obtain ⟨sized, below⟩ := List.forall_mem_cons.mp positive
      have nonneg : ∀ {front back : List α}, first :: rest = front ++ back → 0 ≤ foreignQty size own front := by
        intro front back cut
        refine foreignQty_nonneg own fun other member => positive other ?_
        rw [cut]
        exact List.mem_append_left _ member
      by_cases done : want ≤ 0
      · rw [inOrder_of_nonpos done]
        refine iff_of_false List.not_mem_nil ?_
        rintro ⟨front, back, cut, -, before⟩
        have := nonneg cut
        omega
      cases mine : own first with
      | true =>
          rw [inOrder_own (by omega) mine, List.mem_cons, ih below]
          constructor
          · rintro (same | ⟨front, back, cut, isOwn, before⟩)
            · obtain rfl := Act.withdraw.inj same
              exact ⟨[], rest, rfl, mine, show 0 < want by omega⟩
            · refine ⟨first :: front, back, by rw [cut]; rfl, isOwn, ?_⟩
              rw [foreignQty_cons, if_pos mine]
              omega
          · rintro ⟨front, back, cut, isOwn, before⟩
            cases front with
            | nil => exact .inl (congrArg Act.withdraw (List.cons.inj cut).1.symm)
            | cons other front =>
                obtain ⟨rfl, later⟩ := List.cons.inj cut
                rw [foreignQty_cons, if_pos mine] at before
                exact .inr ⟨front, back, later, isOwn, by omega⟩
      | false =>
          have foreign : ¬ own first = true := by rw [mine]; decide
          have later : .withdraw item ∈ inOrder size own rest (want - min want (size first)) ↔
              ∃ front back, rest = front ++ item :: back ∧ own item = true ∧
                foreignQty size own front < want - min want (size first) := ih below
          rw [inOrder_foreign (by omega) mine, List.mem_cons, later]
          constructor
          · rintro (same | ⟨front, back, cut, isOwn, before⟩)
            · cases same
            · have frontNonneg : 0 ≤ foreignQty size own front := foreignQty_nonneg own fun other member =>
                below other (by rw [cut]; exact List.mem_append_left _ member)
              refine ⟨first :: front, back, by rw [cut]; rfl, isOwn, ?_⟩
              rw [foreignQty_cons, if_neg foreign]
              omega
          · rintro ⟨front, back, cut, isOwn, before⟩
            cases front with
            | nil =>
                obtain ⟨rfl, -⟩ := List.cons.inj cut
                exact absurd isOwn foreign
            | cons other front =>
                obtain ⟨rfl, behind⟩ := List.cons.inj cut
                have frontNonneg : 0 ≤ foreignQty size own front := foreignQty_nonneg own fun other member =>
                  below other (by rw [behind]; exact List.mem_append_left _ member)
                rw [foreignQty_cons, if_neg foreign] at before
                exact .inr ⟨front, back, behind, isOwn, by omega⟩

/-- A demand that goes in order comes to an item when it has taken all of what is in front. -/
theorem inOrder_takes_front {act : Act α} {front back : List α} (positive : ∀ item ∈ front, 0 < size item)
    (member : act ∈ inOrder size own (front ++ back) want) (behind : act.item ∉ front) :
    ∀ item ∈ front, takeWhole size own item ∈ inOrder size own (front ++ back) want := by
  intro item isFront
  by_cases done : want ≤ 0
  · rw [inOrder_of_nonpos done] at member
    cases member
  have more : 0 < want := by omega
  have splits := inOrder_splits size own
  rw [inOrder_append] at member ⊢
  rcases List.mem_append.mp member with early | late
  · exact absurd ((splits.once front want).subset (List.mem_map_of_mem early)) behind
  · -- The demand goes on past the front, so the front does not meet it.
    have spare : foreignQty size own front < want := by
      by_contra met
      rw [splits.total positive more, inOrder_of_nonpos (by omega)] at late
      cases late
    exact List.mem_append_left _ ((splits.spare positive more spare).mpr ⟨item, isFront, rfl⟩)

end Sweeping
