import Mathlib.Algebra.Order.BigOperators.Group.List
import Mathlib.Algebra.Order.Ring.Int
import Mathlib.Data.Finset.Card
import Mathlib.Data.List.AList
import Mathlib.Data.Multiset.AddSub
import Mathlib.Data.Multiset.MapFold

/-!
# The ClOrdID index

`ClOrdIdIndex` folds the order that holds an id, the order its unanswered requests
are for, and how many there are, into one record per id. The reference keeps them
apart: who holds an id, and for which order each unanswered request has claimed it.
-/

set_option autoImplicit false

namespace SlickSim

structure ClOrdIdIndex.Entry where
  order : Nat
  /-- Requests in flight that named it. The source counts them in 32 bits, more than can be in
  flight. -/
  claims : Nat
  held : Bool
deriving DecidableEq, Repr, Inhabited

structure ClOrdIdIndex (κ : Type) where
  ids : AList fun _ : κ => ClOrdIdIndex.Entry

inductive ClOrdIdCall (κ : Type) where
  | claim (id : κ) (orderNum : Nat)
  | release (id : κ) (orderNum : Nat)
  | assign (id : κ) (orderNum : Nat)
  | forget (id : κ) (orderNum : Nat)
  | rename (old new : κ) (orderNum : Nat)
deriving DecidableEq

namespace ClOrdIdIndex

variable {κ : Type} [DecidableEq κ]

def new : ClOrdIdIndex κ := ⟨∅⟩

def find (index : ClOrdIdIndex κ) (id : κ) : Nat :=
  match index.ids.lookup id with
  | none => 0
  | some entry => if entry.held = false then 0 else entry.order

def claim (index : ClOrdIdIndex κ) (id : κ) (orderNum : Nat) : Bool × ClOrdIdIndex κ :=
  match index.ids.lookup id with
  | none => (true, ⟨index.ids.insert id { order := orderNum, claims := 1, held := false }⟩)
  | some entry =>
      if orderNum = 0 ∨ entry.order ≠ orderNum then (false, index)
      else (true, ⟨index.ids.insert id { entry with claims := entry.claims + 1 }⟩)

/-- Writes an entry back, unless nothing needs it any more. -/
def eraseIfUnused (index : ClOrdIdIndex κ) (id : κ) (entry : Entry) : ClOrdIdIndex κ :=
  if entry.claims = 0 ∧ entry.held = false then ⟨index.ids.erase id⟩ else ⟨index.ids.insert id entry⟩

def release (index : ClOrdIdIndex κ) (id : κ) : ClOrdIdIndex κ :=
  match index.ids.lookup id with
  | none => index
  | some entry =>
      if 0 < entry.claims then index.eraseIfUnused id { entry with claims := entry.claims - 1 } else index

def assign (index : ClOrdIdIndex κ) (id : κ) (orderNum : Nat) : ClOrdIdIndex κ :=
  let entry := (index.ids.lookup id).getD { order := 0, claims := 0, held := false }
  ⟨index.ids.insert id { entry with order := orderNum, held := true }⟩

def forget (index : ClOrdIdIndex κ) (id : κ) (orderNum : Nat) : ClOrdIdIndex κ :=
  match index.ids.lookup id with
  | none => index
  | some entry =>
      if entry.order = orderNum then index.eraseIfUnused id { entry with held := false } else index

def rename (index : ClOrdIdIndex κ) (old new : κ) (orderNum : Nat) : ClOrdIdIndex κ :=
  (index.forget old orderNum).assign new orderNum

def size (index : ClOrdIdIndex κ) : Nat :=
  index.ids.entries.length

def step (index : ClOrdIdIndex κ) : ClOrdIdCall κ → ClOrdIdIndex κ
  | .claim id orderNum => (index.claim id orderNum).2
  | .release id _ => index.release id
  | .assign id orderNum => index.assign id orderNum
  | .forget id orderNum => index.forget id orderNum
  | .rename old new orderNum => index.rename old new orderNum

def run (index : ClOrdIdIndex κ) (calls : List (ClOrdIdCall κ)) : ClOrdIdIndex κ :=
  calls.foldl step index

def AssignAsserts (index : ClOrdIdIndex κ) (id : κ) (orderNum : Nat) : Prop :=
  orderNum ≠ 0 ∧ ∀ entry, index.ids.lookup id = some entry → entry.held = false ∨ entry.order = orderNum

/-- The assertions a call runs into hold. -/
def Asserts (index : ClOrdIdIndex κ) : ClOrdIdCall κ → Prop
  | .assign id orderNum => index.AssignAsserts id orderNum
  | .rename old new orderNum => (index.forget old orderNum).AssignAsserts new orderNum
  | _ => True

end ClOrdIdIndex

/-! ## The reference -/

/-- Who holds each id, and which order each unanswered request that named it is for. The
request of a new order is for order 0 until that order takes the id. -/
@[ext] structure ClOrdIdClaims (κ : Type) where
  holders : κ → Finset Nat
  claims : κ → Multiset Nat

namespace ClOrdIdClaims

variable {κ : Type} [DecidableEq κ]

def new : ClOrdIdClaims κ where
  holders := fun _ => ∅
  claims := fun _ => 0

/-- Nobody has the id, or, unless the claim is a new order's, only the order it is for
and requests for that order. -/
def Grants (model : ClOrdIdClaims κ) (id : κ) (orderNum : Nat) : Prop :=
  (∀ order ∈ model.holders id, orderNum ≠ 0 ∧ order = orderNum) ∧
    ∀ order ∈ model.claims id, orderNum ≠ 0 ∧ order = orderNum

instance (model : ClOrdIdClaims κ) (id : κ) (orderNum : Nat) : Decidable (model.Grants id orderNum) :=
  inferInstanceAs (Decidable (_ ∧ _))

def Taken (model : ClOrdIdClaims κ) (id : κ) : Prop :=
  model.holders id ≠ ∅ ∨ model.claims id ≠ 0

instance (model : ClOrdIdClaims κ) (id : κ) : Decidable (model.Taken id) :=
  inferInstanceAs (Decidable (_ ∨ _))

def claim (model : ClOrdIdClaims κ) (id : κ) (orderNum : Nat) : ClOrdIdClaims κ :=
  if model.Grants id orderNum then
    { model with claims := Function.update model.claims id (orderNum ::ₘ model.claims id) }
  else model

def release (model : ClOrdIdClaims κ) (id : κ) (orderNum : Nat) : ClOrdIdClaims κ :=
  { model with claims := Function.update model.claims id ((model.claims id).erase orderNum) }

/-- The order takes the id, and the request it came with is for it from now on. -/
def assign (model : ClOrdIdClaims κ) (id : κ) (orderNum : Nat) : ClOrdIdClaims κ :=
  { holders := Function.update model.holders id (insert orderNum (model.holders id))
    claims := Function.update model.claims id
      ((model.claims id).map fun order => if order = 0 then orderNum else order) }

def forget (model : ClOrdIdClaims κ) (id : κ) (orderNum : Nat) : ClOrdIdClaims κ :=
  { model with holders := Function.update model.holders id ((model.holders id).erase orderNum) }

def step (model : ClOrdIdClaims κ) : ClOrdIdCall κ → ClOrdIdClaims κ
  | .claim id orderNum => model.claim id orderNum
  | .release id orderNum => model.release id orderNum
  | .assign id orderNum => model.assign id orderNum
  | .forget id orderNum => model.forget id orderNum
  | .rename old new orderNum => (model.forget old orderNum).assign new orderNum

def run (model : ClOrdIdClaims κ) (calls : List (ClOrdIdCall κ)) : ClOrdIdClaims κ :=
  calls.foldl step model

/-- An order may take an id that is free, claimed by its own request, or its own. -/
def MayAssign (model : ClOrdIdClaims κ) (id : κ) (orderNum : Nat) : Prop :=
  orderNum ≠ 0 ∧ (¬ model.Taken id ∨ orderNum ∈ model.claims id ∨ 0 ∈ model.claims id ∨
    orderNum ∈ model.holders id)

instance (model : ClOrdIdClaims κ) (id : κ) (orderNum : Nat) : Decidable (model.MayAssign id orderNum) :=
  inferInstanceAs (Decidable (_ ∧ _))

/-- The calls the index is documented for. -/
def Allows (model : ClOrdIdClaims κ) : ClOrdIdCall κ → Prop
  | .claim _ _ => True
  | .release id orderNum => orderNum ∈ model.claims id
  | .assign id orderNum => model.MayAssign id orderNum
  | .forget _ _ => True
  | .rename old new orderNum => (model.forget old orderNum).MayAssign new orderNum

instance (model : ClOrdIdClaims κ) (call : ClOrdIdCall κ) : Decidable (model.Allows call) :=
  match call with
  | .claim .. | .forget .. => isTrue trivial
  | .release .. => inferInstanceAs (Decidable (_ ∈ _))
  | .assign .. | .rename .. => inferInstanceAs (Decidable (MayAssign _ _ _))

def Uses (model : ClOrdIdClaims κ) : List (ClOrdIdCall κ) → Prop
  | [] => True
  | call :: rest => model.Allows call ∧ (model.step call).Uses rest

instance decidableUses : ∀ (model : ClOrdIdClaims κ) (calls : List (ClOrdIdCall κ)),
    Decidable (model.Uses calls)
  | _, [] => isTrue trivial
  | model, call :: rest =>
      have : Decidable ((model.step call).Uses rest) := decidableUses _ rest
      inferInstanceAs (Decidable (_ ∧ _))

end ClOrdIdClaims

end SlickSim
