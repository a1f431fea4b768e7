import Mathlib.Data.List.Chain
import SlickSim.Ledger.FifoFills

/-!
# Trade summaries that add up

Summaries are built leg by leg, a new one whenever the price changes. Recording a fill keeps
that each of them adds up and that together they name the fills so far.
-/

set_option autoImplicit false

namespace SlickSim

def TradeSummaryInfo.legs (summary : TradeSummaryInfo) : List Trade :=
  summary.trades.tail

/-- A summary adds up: the aggressor's running total comes first, then at least one leg. -/
structure TradeSummaryInfo.Balanced (owned : Nat → Bool) (aggressorId : Nat) (summary : TradeSummaryInfo) :
    Prop where
  trades : summary.trades = ⟨aggressorId, summary.qty⟩ :: summary.legs
  some : summary.legs ≠ []
  numOrders : summary.numOrders = summary.trades.length
  qty : summary.qty = (summary.legs.map Trade.qty).sum
  phantomQty : summary.phantomQty = ((summary.legs.filter fun leg => !owned leg.orderId).map Trade.qty).sum

/-- What a fill adds to the phantom quantity of a summary. -/
def phantomPart (owned : Nat → Bool) (orderId : Nat) (qty : Int) : Int :=
  if owned orderId then 0 else qty

/-- The summaries add up to these fills. -/
structure MatchContext.Sums (owned : Nat → Bool) (aggressorId : Nat) (fills : List (BookOrder × Int))
    (ctx : MatchContext) : Prop where
  balanced : ∀ summary ∈ ctx.summaries, summary.Balanced owned aggressorId
  legs : tradeLegs ctx.summaries = fills.map fun fill => (fill.1.orderId, fill.1.price, fill.2)
  apart : ctx.summaries.IsChain fun earlier later => earlier.price ≠ later.price
  last : (ctx.summaries.getLast?.map TradeSummaryInfo.price).getD nullPrice = ctx.lastFillPrice

variable {owned : Nat → Bool} {aggressorId : Nat} {summary : TradeSummaryInfo}

theorem MatchContext.Sums.start (eventTime seqNum : Nat) :
    (MatchContext.start eventTime seqNum).Sums owned aggressorId [] where
  balanced := by
    intro _ member
    cases member
  legs := rfl
  apart := .nil
  last := rfl

theorem TradeSummaryInfo.Balanced.addLeg (balanced : summary.Balanced owned aggressorId) (orderId : Nat) (qty : Int) :
    (summary.addLeg orderId qty (phantomPart owned orderId qty)).Balanced owned aggressorId ∧
      (summary.addLeg orderId qty (phantomPart owned orderId qty)).legs = summary.legs ++ [⟨orderId, qty⟩] := by
  have trades := balanced.trades
  have added : (summary.addLeg orderId qty (phantomPart owned orderId qty)).trades =
      ⟨aggressorId, summary.qty + qty⟩ :: (summary.legs ++ [⟨orderId, qty⟩]) := by
    unfold TradeSummaryInfo.addLeg
    rw [trades]
    rfl
  have legs : (summary.addLeg orderId qty (phantomPart owned orderId qty)).legs =
      summary.legs ++ [⟨orderId, qty⟩] := by
    rw [TradeSummaryInfo.legs, added]
    rfl
  refine ⟨⟨by rw [added, legs]; rfl, by rw [legs]; simp, ?_, ?_, ?_⟩, legs⟩
  · show summary.numOrders + 1 = _
    rw [added, balanced.numOrders, trades]
    simp
  · show summary.qty + qty = _
    rw [legs, balanced.qty]
    simp
  · show summary.phantomQty + phantomPart owned orderId qty = _
    rw [legs, balanced.phantomQty, List.filter_append, List.map_append, List.sum_append]
    congr 1
    unfold phantomPart
    cases ours : owned orderId <;> simp [ours]

theorem MatchState.recordTrade_sums {β : Type} (state : MatchState β) {ctx : MatchContext}
    {fills : List (BookOrder × Int)} (sums : ctx.Sums owned aggressorId fills) (side : BookSide)
    {order : BookOrder} (real : order.price ≠ nullPrice) (qty : Int) :
    (state.recordTrade ctx side aggressorId order.orderId order.price qty
      (phantomPart owned order.orderId qty)).1.Sums owned aggressorId (fills ++ [(order, qty)]) := by
  obtain ⟨balanced, legs, apart, isLast⟩ := sums
  unfold recordTrade
  split <;> rename_i fresh
  · refine ⟨?_, ?_, ?_, by simp⟩
    · intro summary member
      rcases List.mem_append.mp member with member | member
      · exact balanced summary member
      · rw [List.mem_singleton.mp member]
        refine ⟨rfl, by simp [TradeSummaryInfo.legs], rfl, by simp [TradeSummaryInfo.legs], ?_⟩
        unfold phantomPart
        cases ours : owned order.orderId <;> simp [TradeSummaryInfo.legs, ours]
    · rw [tradeLegs_append, legs, List.map_append]
      rfl
    · refine List.isChain_append.mpr ⟨apart, .singleton _, ?_⟩
      intro summary member new isNew
      obtain rfl := Option.some.inj isNew
      rw [Option.mem_def.mp member] at isLast
      exact fun same => fresh (isLast.symm.trans same)
  · have same : ctx.lastFillPrice = order.price := not_ne_iff.mp fresh
    dsimp only
    cases last : ctx.summaries.getLast? with
    | none =>
        rw [last] at isLast
        exact absurd (same.symm.trans isLast.symm) real
    | some summary =>
        rw [last] at isLast
        have samePrice : summary.price = order.price := isLast.trans same
        have whole := List.dropLast_append_getLast? summary last
        obtain ⟨more, leg⟩ := (balanced summary (List.mem_of_getLast? last)).addLeg order.orderId qty
        refine ⟨?_, ?_, ?_, ?_⟩
        · intro other member
          rcases List.mem_append.mp member with member | member
          · exact balanced other (List.dropLast_subset _ member)
          · rw [List.mem_singleton.mp member]
            exact more
        · have before : tradeLegs ctx.summaries = tradeLegs ctx.summaries.dropLast ++ tradeLegs [summary] := by
            rw [← tradeLegs_append, whole]
          rw [List.map_append, ← legs, before, tradeLegs_append, List.append_assoc]
          congr 1
          show (summary.addLeg _ _ _).legs.map (fun leg => (leg.orderId, summary.price, leg.qty)) ++ [] =
            (summary.legs.map (fun leg => (leg.orderId, summary.price, leg.qty)) ++ []) ++ _
          rw [leg, List.append_nil, List.append_nil, List.map_append, samePrice]
          rfl
        · rw [← whole] at apart
          obtain ⟨earlier, -, behind⟩ := List.isChain_append.mp apart
          refine List.isChain_append.mpr ⟨earlier, .singleton _, ?_⟩
          intro before member new isNew
          obtain rfl := Option.some.inj isNew
          exact behind before member summary rfl
        · rw [List.getLast?_append, ← isLast]
          rfl

end SlickSim
