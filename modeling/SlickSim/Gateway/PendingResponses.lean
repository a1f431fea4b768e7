import SlickSim.Common.Messages

/-!
# Pending responses

`PendingResponses` with the programs that call it. A completion is code of its own
that may call the same object again, so calls nest: the machine keeps the calls that
are under way, innermost first, and a log of what became of each waiter.
-/

set_option autoImplicit false

namespace SlickSim

/-- A waiter. Its completion is known by name, as what it runs may register it again. -/
structure Waiter (κ : Type) where
  id : Nat
  accepts : OrderResponse → Bool
  complete : κ

structure PendingResponses (κ : Type) where
  waiters : List (Waiter κ)
  nextId : Nat

namespace PendingResponses

variable {κ : Type}

def new : PendingResponses κ := ⟨[], 0⟩

def add (pending : PendingResponses κ) (accepts : OrderResponse → Bool) (complete : κ) :
    Nat × PendingResponses κ :=
  let id := pending.nextId + 1
  (id, { waiters := pending.waiters ++ [{ id, accepts, complete }], nextId := id })

def takeFirst (pending : PendingResponses κ) (wanted : Waiter κ → Bool) :
    Option (Waiter κ) × PendingResponses κ :=
  (pending.waiters.find? wanted, { pending with waiters := pending.waiters.eraseP wanted })

def dispatch (pending : PendingResponses κ) (response : OrderResponse) :
    Option (Waiter κ) × PendingResponses κ :=
  pending.takeFirst fun waiter => waiter.accepts response

def expire (pending : PendingResponses κ) (id : Nat) : Option (Waiter κ) × PendingResponses κ :=
  pending.takeFirst fun waiter => waiter.id = id

def abandon (pending : PendingResponses κ) (id : Nat) : PendingResponses κ :=
  (pending.takeFirst fun waiter => waiter.id = id).2

def waiting (pending : PendingResponses κ) (id : Nat) : Bool :=
  pending.waiters.any fun waiter => waiter.id = id

/-- Code that calls the object and goes on with what the call returned. -/
inductive Program (κ : Type) where
  | done
  | add (accepts : OrderResponse → Bool) (complete : κ) (next : Nat → Program κ)
  | dispatch (response : OrderResponse) (next : Bool → Program κ)
  | expire (id : Nat) (next : Program κ)
  | abandon (id : Nat) (next : Program κ)
  | waiting (id : Nat) (next : Bool → Program κ)

/-- What became of a waiter. A completion without a report is a time-out. -/
inductive Event (κ : Type) where
  | added (waiter : Waiter κ)
  | completed (id : Nat) (report : Option OrderResponse)
  | abandoned (id : Nat)

structure Machine (κ : Type) where
  pending : PendingResponses κ
  /-- The programs under way, the one that runs first. -/
  calls : List (Program κ)
  log : List (Event κ)

namespace Machine

def start (main : Program κ) : Machine κ :=
  { pending := .new, calls := [main], log := [] }

/-- One call, where `body` is what each completion runs when it is given a report. -/
def step (body : κ → Option OrderResponse → Program κ) (machine : Machine κ) : Machine κ :=
  match machine.calls with
  | [] => machine
  | .done :: rest => { machine with calls := rest }
  | .add accepts complete next :: rest =>
      let (id, pending) := machine.pending.add accepts complete
      { pending, calls := next id :: rest, log := machine.log ++ [.added { id, accepts, complete }] }
  | .dispatch response next :: rest =>
      match machine.pending.dispatch response with
      | (none, _) => { machine with calls := next false :: rest }
      | (some waiter, pending) =>
          { pending, calls := body waiter.complete (some response) :: next true :: rest
            log := machine.log ++ [.completed waiter.id (some response)] }
  | .expire id next :: rest =>
      match machine.pending.expire id with
      | (none, _) => { machine with calls := next :: rest }
      | (some waiter, pending) =>
          { pending, calls := body waiter.complete none :: next :: rest
            log := machine.log ++ [.completed waiter.id none] }
  | .abandon id next :: rest =>
      { pending := machine.pending.abandon id, calls := next :: rest
        log := machine.log ++ [.abandoned id] }
  | .waiting id next :: rest => { machine with calls := next (machine.pending.waiting id) :: rest }

def run (body : κ → Option OrderResponse → Program κ) : Nat → Machine κ → Machine κ
  | 0, machine => machine
  | calls + 1, machine => run body calls (machine.step body)

end Machine

end PendingResponses

end SlickSim
