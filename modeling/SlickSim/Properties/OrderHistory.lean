import SlickSim.Properties.RestVerdict
import SlickSim.Properties.StoredOrders
import SlickSim.Venues.CoinbaseOrderHistory

/-!
# What a listing shows

The store of a gateway files an order under the user of the first response that mentions it.
A listing walks these first mentions backwards, drops what the query does not ask for and stops
at the limit.
-/

set_option autoImplicit false

namespace SlickSim

theorem responsesUnder_concat_self {responses : List OrderResponse} {response : OrderResponse} {orderId : Name}
    (same : response.orderId = orderId) :
    responsesUnder (responses ++ [response]) orderId = responsesUnder responses orderId ++ [response] := by
  unfold responsesUnder
  rw [List.filter_append, List.filter_cons_of_pos (by simp [same]), List.filter_nil]

theorem responsesUnder_concat_other {responses : List OrderResponse} {response : OrderResponse} {orderId : Name}
    (other : response.orderId ≠ orderId) :
    responsesUnder (responses ++ [response]) orderId = responsesUnder responses orderId := by
  unfold responsesUnder
  rw [List.filter_append, List.filter_cons_of_neg (by simp [other]), List.filter_nil, List.append_nil]

/-! ## First mentions -/

/-- One more response. It mentions an order if it has an order id that is new. -/
def mention (firsts : List OrderResponse) (response : OrderResponse) : List OrderResponse :=
  if response.orderId.isEmpty = true ∨ response.orderId ∈ firsts.map OrderResponse.orderId then firsts
  else firsts ++ [response]

/-- The responses that mention an order for the first time. -/
def firstMentions (responses : List OrderResponse) : List OrderResponse :=
  responses.foldl mention []

theorem firstMentions_concat (responses : List OrderResponse) (response : OrderResponse) :
    firstMentions (responses ++ [response]) = mention (firstMentions responses) response :=
  List.foldl_concat ..

theorem firstMentions_sublist (responses : List OrderResponse) : (firstMentions responses).Sublist responses := by
  induction responses using List.reverseRecOn with
  | nil => exact .slnil
  | append_singleton earlier response ih =>
      rw [firstMentions_concat]
      unfold mention
      split
      · exact ih.trans (List.sublist_append_left ..)
      · exact ih.append (.refl _)

theorem firstMentions_nodup (responses : List OrderResponse) :
    ((firstMentions responses).map OrderResponse.orderId).Nodup := by
  induction responses using List.reverseRecOn with
  | nil => exact .nil
  | append_singleton earlier response ih =>
      rw [firstMentions_concat]
      unfold mention
      split
      · exact ih
      · rename_i fresh
        rw [List.map_append, List.nodup_append]
        refine ⟨ih, List.nodup_singleton _, ?_⟩
        rintro orderId inside _ isNew rfl
        obtain rfl := List.mem_singleton.mp isNew
        exact fresh (.inr inside)

theorem mem_firstMentions {responses : List OrderResponse} {orderId : Name} :
    orderId ∈ (firstMentions responses).map OrderResponse.orderId ↔
      orderId.isEmpty = false ∧ responsesUnder responses orderId ≠ [] := by
  induction responses using List.reverseRecOn with
  | nil => exact iff_of_false List.not_mem_nil fun mentioned => mentioned.2 rfl
  | append_singleton earlier response ih =>
      have under : responsesUnder (earlier ++ [response]) orderId ≠ [] ↔
          responsesUnder earlier orderId ≠ [] ∨ response.orderId = orderId := by
        by_cases same : response.orderId = orderId
        · simp [responsesUnder_concat_self same, same]
        · simp [responsesUnder_concat_other same, same]
      rw [firstMentions_concat, under]
      unfold mention
      split <;> rename_i known
      · rw [ih]
        refine and_congr_right fun named => ⟨.inl, ?_⟩
        rintro (mentioned | rfl)
        · exact mentioned
        · exact (ih.mp (known.resolve_left (by rw [named]; rintro ⟨⟩))).2
      · rw [List.map_append, List.mem_append, ih, List.map_singleton, List.mem_singleton]
        constructor
        · rintro (⟨named, mentioned⟩ | rfl)
          · exact ⟨named, .inl mentioned⟩
          · exact ⟨Bool.eq_false_iff.mpr fun empty => known (.inl empty), .inr rfl⟩
        · rintro ⟨named, mentioned | same⟩
          · exact .inl ⟨named, mentioned⟩
          · exact .inr same.symm

/-! ## The store -/

namespace OrderStore

def report (order : Order) (response : OrderResponse) : Order :=
  keepMessage response (countFill response (describe response order))

/-- What the responses under the order id of a first mention make of an order. -/
def reported (responses : List OrderResponse) (first : OrderResponse) : Order :=
  (responsesUnder responses first.orderId).foldl report (identify first default)

theorem report_orderId (order : Order) (response : OrderResponse) :
    (report order response).orderId = order.orderId := by
  have counted : (countFill response (describe response order)).orderId = order.orderId := by
    unfold countFill
    split <;> rfl
  unfold report keepMessage
  split
  · exact counted
  · exact counted
  · exact counted

theorem reported_orderId (responses : List OrderResponse) (first : OrderResponse) :
    (reported responses first).orderId = first.orderId := by
  have kept : ∀ (later : List OrderResponse) (order : Order), (later.foldl report order).orderId = order.orderId := by
    intro later
    induction later with
    | nil => exact fun _ => rfl
    | cons response later ih => exact fun order => (ih _).trans (report_orderId order response)
  exact kept _ _

theorem replay_concat (responses : List OrderResponse) (response : OrderResponse) :
    replay (responses ++ [response]) = (replay responses).apply response :=
  List.foldl_concat ..

theorem replay_find_none {responses : List OrderResponse} {orderId : Name}
    (unmentioned : responsesUnder responses orderId = []) : (replay responses).find orderId = none := by
  induction responses using List.reverseRecOn with
  | nil => rfl
  | append_singleton earlier response ih =>
      have other : response.orderId ≠ orderId := by
        intro same
        rw [responsesUnder_concat_self same] at unmentioned
        cases (List.append_eq_nil_iff.mp unmentioned).2
      rw [responsesUnder_concat_other other] at unmentioned
      rw [replay_concat, apply_find_other _ _ other]
      exact ih unmentioned

/-- The entry of an order is made of the responses under its order id, and of no others. -/
theorem replay_find_first {responses : List OrderResponse} {first : OrderResponse}
    (isFirst : first ∈ firstMentions responses) :
    (replay responses).find first.orderId = some (reported responses first) := by
  induction responses using List.reverseRecOn with
  | nil => cases isFirst
  | append_singleton earlier response ih =>
      have named : first.orderId.isEmpty = false :=
        (mem_firstMentions.mp (List.mem_map_of_mem isFirst)).1
      rw [replay_concat]
      rw [firstMentions_concat] at isFirst
      unfold reported
      by_cases same : response.orderId = first.orderId
      · rw [responsesUnder_concat_self same, List.foldl_concat]
        have applied := (replay earlier).apply_find_self response (same ▸ named)
        rw [same] at applied
        rw [applied]
        unfold mention at isFirst
        split at isFirst <;> rename_i known
        · rw [ih isFirst]
          rfl
        · have fresh : responsesUnder earlier first.orderId = [] := by
            by_contra mentioned
            exact known (.inr (same ▸ mem_firstMentions.mpr ⟨named, mentioned⟩))
          obtain mentioned | isLast := List.mem_append.mp isFirst
          · exact absurd (same ▸ List.mem_map_of_mem mentioned) fun inside => known (.inr inside)
          · obtain rfl := List.mem_singleton.mp isLast
            rw [replay_find_none fresh, fresh]
            rfl
      · rw [responsesUnder_concat_other same, apply_find_other _ _ same]
        refine ih ?_
        unfold mention at isFirst
        split at isFirst
        · exact isFirst
        · refine (List.mem_append.mp isFirst).resolve_right fun isLast => same ?_
          rw [List.mem_singleton.mp isLast]

/-- An order is filed under the user of its first mention. -/
theorem replay_ids (responses : List OrderResponse) (userId : Name) :
    ((replay responses).idsByUser.lookup userId).getD [] =
      ((firstMentions responses).filter fun first => decide (first.userId = userId)).map OrderResponse.orderId := by
  induction responses using List.reverseRecOn with
  | nil => rfl
  | append_singleton earlier response ih =>
      rw [replay_concat, firstMentions_concat]
      unfold apply mention
      by_cases empty : response.orderId.isEmpty = true
      · rw [if_pos empty, if_pos (.inl empty)]
        exact ih
      rw [if_neg empty]
      have named : response.orderId.isEmpty = false := Bool.eq_false_iff.mpr empty
      by_cases mentioned : response.orderId ∈ (firstMentions earlier).map OrderResponse.orderId
      · rw [if_pos (.inr mentioned)]
        obtain ⟨first, isFirst, same⟩ := List.mem_map.mp mentioned
        have found := replay_find_first isFirst
        rw [same] at found
        rw [show (replay earlier).byOrderId.lookup response.orderId = some _ from found]
        exact ih
      · rw [if_neg (not_or.mpr ⟨empty, mentioned⟩)]
        have fresh : responsesUnder earlier response.orderId = [] := by
          by_contra under
          exact mentioned (mem_firstMentions.mpr ⟨named, under⟩)
        rw [show (replay earlier).byOrderId.lookup response.orderId = none from replay_find_none fresh,
          List.filter_append, List.map_append]
        dsimp only
        by_cases mine : response.userId = userId
        · subst mine
          rw [AList.lookup_insert, ih, List.filter_cons_of_pos (by simp)]
          rfl
        · rw [AList.lookup_insert_ne (Ne.symm mine), ih, List.filter_cons_of_neg (by simp [mine])]
          exact (List.append_nil _).symm

/-- The orders of a user, newest first. -/
theorem replay_ordersOf (responses : List OrderResponse) (userId : Name) :
    (replay responses).ordersOf userId =
      ((firstMentions responses).filter fun first => decide (first.userId = userId)).reverse.map
        (reported responses) := by
  unfold ordersOf
  rw [replay_ids, ← List.map_reverse, List.filterMap_map]
  refine List.filterMap_eq_map_iff_forall_eq_some.mpr fun first member => ?_
  exact replay_find_first (List.mem_of_mem_filter (List.mem_reverse.mp member))

end OrderStore

/-! ## Listings -/

/-- The loop keeps what the query asks for, up to its limit. -/
theorem OrderQuery.collect_eq (query : OrderQuery) (limit : Nat) (orders rest : List Order)
    (within : orders.length ≤ limit) :
    query.collect limit orders rest = orders ++ (rest.filter query.keeps).take (limit - orders.length) := by
  induction rest generalizing orders with
  | nil =>
      rw [List.filter_nil, List.take_nil, List.append_nil]
      rfl
  | cons order rest ih =>
      unfold OrderQuery.collect
      cases kept : query.keeps order with
      | false =>
          rw [if_pos rfl, ih orders within, List.filter_cons_of_neg (by rw [kept]; rintro ⟨⟩)]
      | true =>
          rw [if_neg (by rintro ⟨⟩), List.filter_cons_of_pos kept]
          split <;> rename_i full
          · rw [Nat.sub_eq_zero_of_le full, List.take_zero, List.append_nil]
          · rw [ih _ (by rw [List.length_append]; exact Nat.lt_of_not_le full), List.append_assoc, List.length_append,
              show limit - orders.length = (limit - (orders.length + 1)) + 1 by omega, List.take_succ_cons]
            rfl

theorem Name.eq_of_bytes {left right : Name} (same : left.bytes = right.bytes) : left = right := by
  obtain ⟨bytes, _, _⟩ := left
  obtain ⟨_, _, _⟩ := right
  cases same
  rfl

def ordersOfUser (responses : List OrderResponse) (userId : List UInt8) : List Order :=
  ((firstMentions responses).filter fun first => decide (first.userId.bytes = userId)).reverse.map
    (OrderStore.reported responses)

theorem OrderStore.replay_ordersOfUser (responses : List OrderResponse) (userId : List UInt8) :
    (OrderStore.replay responses).ordersOfUser userId = SlickSim.ordersOfUser responses userId := by
  unfold OrderStore.ordersOfUser SlickSim.ordersOfUser
  split <;> rename_i fits
  · rw [OrderStore.replay_ordersOf]
    congr 3
    funext first
    rw [decide_eq_decide]
    constructor
    · rintro same
      rw [same, fits]
    · intro same
      exact Name.eq_of_bytes (same.trans fits.symm)
  · have nobody : (firstMentions responses).filter (fun first => decide (first.userId.bytes = userId)) = [] := by
      refine List.filter_eq_nil_iff.mpr fun first _ => ?_
      rw [decide_eq_true_iff]
      rintro rfl
      exact fits first.userId.holds_bytes
    rw [nobody]
    rfl

namespace OrderHistory

def published (events : List HistoryEvent) : List OrderResponse :=
  events.filterMap fun event =>
    match event with
    | .respond response => some response
    | .list _ => none

/-- The store has folded what has been read. -/
structure Folds (responses read : List OrderResponse) (history : OrderHistory) : Prop where
  split : responses = read ++ history.unread
  folded : history.orders = OrderStore.replay read

variable {responses read : List OrderResponse} {history : OrderHistory}

theorem Folds.drain (folds : Folds responses read history) :
    Folds responses (read ++ history.unread.take maxBatch) history.drain where
  split := by
    rw [folds.split, List.append_assoc]
    exact congrArg (read ++ ·) (List.take_append_drop maxBatch history.unread).symm
  folded := by
    unfold OrderHistory.drain OrderStore.replay
    rw [List.foldl_append, folds.folded]
    rfl

theorem Folds.step (folds : Folds responses read history) (event : HistoryEvent) :
    ∃ read', Folds (responses ++ published [event]) read' (history.step event) := by
  cases event with
  | respond response =>
      refine ⟨read, ?_, folds.folded⟩
      rw [folds.split]
      exact List.append_assoc ..
  | list query =>
      rw [show published [HistoryEvent.list query] = [] from rfl, List.append_nil]
      unfold OrderHistory.step
      dsimp only
      split
      · exact ⟨read, folds⟩
      · unfold handleGetOrders
        split
        · exact ⟨read, folds⟩
        · dsimp only
          split
          · exact ⟨_, folds.drain⟩
          · exact ⟨_, folds.drain.split, folds.drain.folded⟩

theorem Folds.run (folds : Folds responses read history) (events : List HistoryEvent) :
    ∃ read', Folds (responses ++ published events) read' (history.run events) := by
  induction events generalizing history responses read with
  | nil => exact ⟨read, by rw [show published [] = [] from rfl, List.append_nil]; exact folds⟩
  | cons event rest ih =>
      obtain ⟨next, folds⟩ := folds.step event
      have split : published (event :: rest) = published [event] ++ published rest := by
        unfold published
        rw [← List.filterMap_append, List.singleton_append]
      rw [split, ← List.append_assoc]
      exact ih folds

/-- What a listing shows of a user's orders. -/
def listed (responses : List OrderResponse) (query : OrderQuery) (limit : Nat) : List OrderJson :=
  (((SlickSim.ordersOfUser responses query.userId).filter query.keeps).take limit).map Order.toJson

theorem listed_nodup (responses : List OrderResponse) (query : OrderQuery) (limit : Nat) :
    ((listed responses query limit).map OrderJson.orderId).Nodup := by
  unfold listed
  rw [List.map_map]
  refine List.Nodup.sublist (((List.take_sublist ..).trans List.filter_sublist).map _) ?_
  unfold SlickSim.ordersOfUser
  rw [List.map_map]
  have ids : (OrderJson.orderId ∘ Order.toJson) ∘ OrderStore.reported responses = OrderResponse.orderId :=
    funext (OrderStore.reported_orderId responses)
  rw [ids, List.map_reverse, List.nodup_reverse]
  exact (firstMentions_nodup responses).sublist (List.filter_sublist.map _)

/-- After any run, a listing shows the user's own orders, newest first, each once and as the
responses read so far leave it, as far as the query keeps them and the limit goes. It has read
everything it had not read before, up to a batch. Without a number for a limit it is refused and
nothing is read; and it is the last of its process if an order cannot be written. -/
theorem listing_shows (events : List HistoryEvent) (query : OrderQuery) :
    let history := new.run events
    ∃ read, published events = read ++ history.unread ∧
      match query.parseLimit with
      | none => history.handleGetOrders query = (.invalidLimit, history)
      | some limit =>
          let seen := read ++ history.unread.take maxBatch
          let answered := history.handleGetOrders query
          ((listed seen query limit).map OrderJson.orderId).Nodup ∧
            answered.2.orders = OrderStore.replay seen ∧ answered.2.unread = history.unread.drop maxBatch ∧
            ((∀ order ∈ listed seen query limit, order.Dumps) →
              answered.1 = .orders (listed seen query limit) ∧ answered.2.terminated = history.terminated) ∧
            (¬ (∀ order ∈ listed seen query limit, order.Dumps) →
              answered.1 = .unanswered ∧ answered.2.terminated = true) := by
  intro history
  have start : Folds [] [] new := ⟨rfl, rfl⟩
  obtain ⟨read, folds⟩ := start.run events
  refine ⟨read, folds.split, ?_⟩
  cases parsed : query.parseLimit with
  | none =>
      unfold handleGetOrders
      rw [parsed]
  | some limit =>
      dsimp -zeta only
      intro seen answered
      have caughtUp : history.drain.orders = OrderStore.replay seen := folds.drain.folded
      have orders : (query.collect limit [] (history.drain.orders.ordersOfUser query.userId)).map Order.toJson =
          listed seen query limit := by
        rw [caughtUp, OrderStore.replay_ordersOfUser, OrderQuery.collect_eq _ _ _ _ (Nat.zero_le _)]
        rfl
      have isAnswer : answered =
          if ∀ order ∈ listed seen query limit, order.Dumps then (.orders (listed seen query limit), history.drain)
          else (.unanswered, { history.drain with terminated := true }) := by
        rw [← orders]
        unfold answered handleGetOrders
        rw [parsed]
      refine ⟨listed_nodup seen query limit, ?_⟩
      rw [isAnswer]
      split <;> rename_i writes
      · exact ⟨caughtUp, rfl, fun _ => ⟨rfl, rfl⟩, absurd writes⟩
      · exact ⟨caughtUp, rfl, fun all => absurd all writes, fun _ => ⟨rfl, rfl⟩⟩

end OrderHistory

end SlickSim
