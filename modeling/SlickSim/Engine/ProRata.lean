import SlickSim.Engine.Fifo

/-!
# The pro-rata engine

Each round allocates the aggressor's quantity across the whole best level and
executes the allocation. `ProRataConfig` carries what `validate` checks.
-/

set_option autoImplicit false

namespace SlickSim

structure ProRataConfig where
  lotSize : Int
  minAllocation : Int
  fifoPercent : Nat
  lotSize_positive : 0 < lotSize
  minAllocation_nonneg : 0 ≤ minAllocation
  fifoPercent_le : fifoPercent ≤ 100
deriving DecidableEq

structure Allocation where
  orderId : Nat
  size : Int
  qty : Int
  order : Option Nat
deriving DecidableEq, Repr

namespace ProRata

/-- `floor(a * b / c)` on non-negative quantities. -/
def shareOf (a b c : Int) : Int :=
  a * b / c

def floorLot (config : ProRataConfig) (qty : Int) : Int :=
  qty - qty % config.lotSize

/-- Hands out up to `left` front to back, and returns what nobody took. -/
def takeInQueue : List Allocation → Int → List Allocation × Int
  | [], left => ([], left)
  | head :: rest, left =>
      let extra := min left (head.size - head.qty)
      let (allocated, left) := takeInQueue rest (left - extra)
      ({ head with qty := head.qty + extra } :: allocated, left)

/-- One order's share of the pro-rata part. -/
def shareFor (config : ProRataConfig) (proRata base : Int) (item : Allocation) : Int :=
  let share := floorLot config (shareOf proRata (item.size - item.qty) base)
  if share < config.minAllocation then 0 else share

def allocate (config : ProRataConfig) (items : List Allocation) (qty : Int) : List Allocation :=
  let total := (items.map Allocation.size).sum
  if qty ≥ total then items.map fun item => { item with qty := item.size }
  else
    let fifo := if 0 < config.fifoPercent then floorLot config (shareOf qty config.fifoPercent 100) else 0
    let items := (takeInQueue items fifo).1
    let proRata := qty - fifo
    let base := total - (qty - proRata)
    let shared := if 0 < proRata then
        items.map fun item => { item with qty := item.qty + shareFor config proRata base item }
      else items
    let left := proRata - ((shared.map Allocation.qty).sum - (items.map Allocation.qty).sum)
    (takeInQueue shared left).1

variable {β : Type}

def blankAllocations (book : OrderBook β) (level : PriceLevelL3) (resolve : Bool) :
    List Allocation :=
  level.orders.map fun bookOrder =>
    { orderId := bookOrder.orderId, size := bookOrder.quantity, qty := 0
      order := if resolve then book.findOrder bookOrder.orderId else none }

variable [OrderBookL3 β]

/-- Handles every own order of the level. Returns whether one was cancelled, or
`none` when the incoming order is refused. -/
def cancelOwn (env : Environment) (ref requestTime : Nat) (ctx : MatchContext)
    (smpMode : SelfMatchPreventionMode) :
    List Allocation → MatchState β → Option Bool × MatchState β
  | [], state => (some false, state)
  | item :: rest, state =>
      if isSelfMatch (state.order ref) (item.order.map state.book.heap) = true then
        match state.handleSelfMatch env (item.order.getD 0) requestTime ctx.eventTime ctx.seqNum
            smpMode with
        | (false, state) => (none, state)
        | (true, state) =>
            match cancelOwn env ref requestTime ctx smpMode rest state with
            | (none, state) => (none, state)
            | (some _, state) => (some true, state)
      else cancelOwn env ref requestTime ctx smpMode rest state

/-- Executes an allocation. `false` when the book declined a fill. -/
def fillLevel (env : Environment) (side : BookSide) (ref : Nat) (levelPrice : Int)
    (checkSelfMatch : Bool) :
    List Allocation → MatchContext → Int → MatchState β → Bool × Int × MatchContext × MatchState β
  | [], ctx, orderQty, state => (true, orderQty, ctx, state)
  | item :: rest, ctx, orderQty, state =>
      if item.qty = 0 then fillLevel env side ref levelPrice checkSelfMatch rest ctx orderQty state
      else
        let orderQty := orderQty - item.qty
        let resting := if checkSelfMatch then item.order else state.book.findOrder item.orderId
        match state.fillResting env ctx side ref item.orderId resting levelPrice item.qty orderQty with
        | (false, ctx, state) => (false, orderQty, ctx, state)
        | (true, ctx, state) =>
            fillLevel env side ref levelPrice checkSelfMatch rest ctx orderQty state

def matchLoop (env : Environment) (config : ProRataConfig) (side : BookSide) (ref : Nat)
    (orderPrice : Int) (requestTime : Nat) (smpMode : SelfMatchPreventionMode) :
    Nat → MatchContext → Int → MatchState β → LoopResult β
  | 0, ctx, orderQty, state => ⟨false, orderQty, ctx, state⟩
  | fuel + 1, ctx, orderQty, state =>
      if orderQty ≤ 0 then ⟨false, orderQty, ctx, state⟩
      else
        match state.crossableLevel side orderPrice with
        | none => ⟨false, orderQty, ctx, state⟩
        | some level =>
            let checkSelfMatch := decide (smpMode ≠ .none)
            let allocations :=
              allocate config (blankAllocations state.book level checkSelfMatch) orderQty
            let handled :=
              if checkSelfMatch then cancelOwn env ref requestTime ctx smpMode allocations state
              else (some false, state)
            match handled with
            | (none, state) => ⟨true, orderQty, ctx, state⟩
            | (some true, state) =>
                matchLoop env config side ref orderPrice requestTime smpMode fuel ctx orderQty state
            | (some false, state) =>
                match fillLevel env side ref level.price checkSelfMatch allocations ctx orderQty
                    state with
                | (false, orderQty, ctx, state) => ⟨false, orderQty, ctx, state⟩
                | (true, orderQty, ctx, state) =>
                    matchLoop env config side ref orderPrice requestTime smpMode fuel ctx orderQty
                      state

def feedLevel (env : Environment) (side : BookSide) (aggressorId : Nat) (levelPrice : Int) :
    List Allocation → MatchContext → Int → MatchState β → Bool × Int × MatchContext × MatchState β
  | [], ctx, qty, state => (true, qty, ctx, state)
  | item :: rest, ctx, qty, state =>
      if item.qty = 0 then feedLevel env side aggressorId levelPrice rest ctx qty state
      else
        match state.fillRestingFromFeed env ctx side aggressorId item.orderId levelPrice item.qty
            qty with
        | (false, qty, ctx, state) => (false, qty, ctx, state)
        | (true, qty, ctx, state) => feedLevel env side aggressorId levelPrice rest ctx qty state

def feedLoop (env : Environment) (config : ProRataConfig) (side : BookSide) (aggressorId : Nat)
    (price : Int) : Nat → MatchContext → Int → MatchState β → LoopResult β
  | 0, ctx, qty, state => ⟨false, qty, ctx, state⟩
  | fuel + 1, ctx, qty, state =>
      if qty ≤ 0 then ⟨false, qty, ctx, state⟩
      else
        match state.crossableLevel side price with
        | none => ⟨false, qty, ctx, state⟩
        | some level =>
            let allocations := allocate config (blankAllocations state.book level false) qty
            match feedLevel env side aggressorId level.price allocations ctx qty state with
            | (false, qty, ctx, state) => ⟨false, qty, ctx, state⟩
            | (true, qty, ctx, state) =>
                feedLoop env config side aggressorId price fuel ctx qty state

end ProRata

end SlickSim
