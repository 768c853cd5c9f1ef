import HeapLedger.Counter
import HeapLedger.OomPolicy
import HeapLedger.Size
import HeapLedger.Strategy

/-!
# `HeapLedger/Ledger.lean` — the state of an accounted heap

A ledger is a heap together with what is known about it: the counter of live bytes and the threads
that have touched it, the out-of-memory policy, and the log. `Ledger.usedMemory` is the number
that all of this is for.

Every operation either returns or halts. It halts at a fault, and when an allocation that may not
fail does: then the handler in force has been called with the size that could not be had. What was
done before stays done, and the ledger can be used again.
-/

set_option autoImplicit false

namespace HeapLedger

inductive Halt where
  | fault (fault : Fault)
  /-- A handler was called for a failed request of `size` bytes. -/
  | outOfMemory (handler : OomHandler) (size : Nat)
  deriving DecidableEq, Repr

/-- A heap, and the account of it. -/
structure Ledger (β : Type) where
  heap : Heap β
  counter : Counter
  /-- The threads that have touched a counter. -/
  threads : Registry
  caller : Nat
  policy : OomPolicy
  log : List Event

abbrev LedgerOp (β α : Type) : Type := EStateM Halt (Ledger β) α

namespace Ledger

variable {β α : Type}

/-- A ledger over a heap, with nothing counted. -/
def new (heap : Heap β) (slots : Nat) : Ledger β :=
  ⟨heap, .zero slots, {}, 0, {}, []⟩

/-- Live bytes taken from the backend. -/
def usedMemory (l : Ledger β) : UInt64 :=
  l.counter.total l.threads.size

def onHeap (op : HeapOp β α) : LedgerOp β α := fun l =>
  match op l.heap with
  | .ok a heap => .ok a { l with heap := heap }
  | .error fault heap => .error (.fault fault) { l with heap := heap }

def emit (events : List Event) : LedgerOp β Unit :=
  modify fun l => { l with log := l.log ++ events }

/-- The caller's share of the counter, changed by `change`, which is told the caller's index. -/
def count (change : Counter → Option Nat → Counter) : LedgerOp β Unit :=
  modify fun l =>
    let threads := l.threads.claim l.caller
    { l with threads := threads, counter := change l.counter (threads.index? l.caller) }

def charge (bytes : Nat) : LedgerOp β Unit :=
  count fun c index => c.add index (UInt64.ofNat bytes)

def credit (bytes : Nat) : LedgerOp β Unit :=
  count fun c index => c.sub index (UInt64.ofNat bytes)

/-! ## The policy -/

/-- The handler that the next failure calls. -/
def handler : LedgerOp β OomHandler := do
  pure (← get).policy.current

def setHandler (handler : OomHandler) : LedgerOp β Unit := do
  emit [.handlerReplaced]
  modify fun l => { l with policy := l.policy.install handler }

/-- Calls the handler in force for a failed request of `size` bytes. -/
def fail (size : Nat) : LedgerOp β α := do
  let handler ← handler
  emit (handler.events size)
  throw (.outOfMemory handler size)

/-- An attempt whose failure is the handler's business. -/
def orFail (attempt : LedgerOp β (Except AllocError α)) : LedgerOp β α := do
  match ← attempt with
  | .ok a => pure a
  | .error e => fail e.requested

end Ledger

end HeapLedger
