import HeapLedger.Backend.Arena
import HeapLedger.Ledger.Action

/-!
# `HeapLedger/Session/Step.lean` — what a session is told and what it answers

A session drives one ledger through a list of steps. Pointers have names, called handles: a step
names the pointer it is about and the name its result gets. A `Task` is an action whose pointer is
still to be looked up; `Task.action` makes the action of it, or says why there is none. Steps can
also look at memory and write to it directly, and run steps on another thread.
-/

set_option autoImplicit false

namespace HeapLedger.Session

abbrev Handle : Type := Int

/-- An action on a pointer that is named elsewhere. -/
inductive Task where
  | alloc (mode : Mode) (size : Nat)
  | allocUsable (mode : Mode) (size : Nat)
  | allocZeroed (mode : Mode) (size : Nat)
  | allocZeroedUsable (mode : Mode) (size : Nat)
  | allocZeroedArray (mode : Mode) (count elem : Nat)
  | allocAligned (mode : Mode) (size align : Nat)
  | realloc (mode : Mode) (size : Nat)
  | reallocUsable (mode : Mode) (size : Nat)
  | dupString (content : List UInt8)
  | free
  | freeWithSize (usable : Nat)
  | usableSize
  | allocationSize
  | adviseUnused (hint : Nat)
  | info
  | setBackgroundThread (enable : Bool)
  | purge
  | record
  | setHandler (oomHandler : OomHandler)
  | handler
  | layoutAlloc (size align : Nat)
  | layoutAllocZeroed (size align : Nat)
  /-- The size of the old layout, where it is not the one the handle remembers. -/
  | layoutRealloc (size align : Nat) (old : Option Nat)
  /-- The size of the layout, where it is not the one the handle remembers. -/
  | layoutFree (align : Nat) (old : Option Nat)
  | blockAlloc (size : Nat)
  | blockAllocZeroed (size : Nat)
  | blockAllocAligned (size align : Nat)
  | blockRealloc (size : Nat)
  | blockFree
  | blockFreeWithSize (usable : Nat)
  | blockUsableSize
  | blockFootprint

/-- A look at memory, or a change of it, relative to a pointer. -/
inductive Touch where
  /-- Byte `i` of `len` becomes `byte + step * i`. -/
  | fill (offset : Int) (len byte step : Nat)
  | peek (offset : Int) (len : Nat)
  | runs (offset : Int) (len : Nat)
  /-- A value for the `n`th word in front of the pointer. -/
  | poke (n value : Nat)

/-- One step of a session. -/
inductive Step where
  /-- A task on the pointer of a handle. The result goes by the name `target`, under which a size
  is remembered with it. -/
  | act (pointer target : Option Handle) (task : Task) (size : Nat)
  | touch (pointer : Option Handle) (touch : Touch)
  /-- Steps on a thread of their own, to the end, provided that the handle is live if there is
  one. -/
  | thread (pointer : Option Handle) (steps : List Step)

inductive Refusal where
  | noHandle
  | handleBusy
  | interiorNul
  | zeroSize
  | layoutError
  | outOfArena
  deriving DecidableEq, Repr

/-- A pointer as answers show it. -/
inductive PointerView where
  /-- Its distance from the base of the arena. -/
  | offset (distance : Int)
  /-- Whether it is aligned. Where it is means nothing. -/
  | aligned (yes : Bool)
  deriving DecidableEq, Repr

inductive Outcome where
  | reply (reply : Reply PointerView)
  | bytes (content : List UInt8)
  | runs (runs : List (UInt8 × Nat))
  | refused (why : Refusal)
  | fault (message : String)
  | outOfMemory (handler : OomHandler) (size : Nat)

inductive Answer where
  /-- What came of it, the live bytes after it, the backend's calls and the log records. -/
  | step (outcome : Outcome) (used : UInt64) (calls : List Call) (log : List Event)
  /-- The answers of a thread, and the live bytes after it. -/
  | thread (answers : List Answer) (used : UInt64)

namespace Task

def resizeTo? : Task → Option Nat
  | .realloc _ n | .reallocUsable _ n => some n
  | _ => none

def align : Task → Nat
  | .allocAligned _ _ a | .layoutAlloc _ a | .layoutAllocZeroed _ a | .layoutRealloc _ a _
  | .layoutFree a _ | .blockAllocAligned _ a => a
  | _ => 0

/-- The block of the pointer is gone when the task is done. -/
def frees : Task → Bool
  | .free | .freeWithSize _ | .layoutFree _ _ | .blockFree | .blockFreeWithSize _ => true
  | _ => false

/-- The task resizes a block, and frees it if the new size is refused. -/
def resizes (task : Task) : Bool :=
  task.resizeTo?.isSome

def need (ptr : Option Nat) (action : Nat → Action) : Except Refusal Action :=
  match ptr with
  | some p => .ok (action p)
  | none => .error .noHandle

def layout (size align : Nat) (action : Layout → Action) : Except Refusal Action :=
  match Layout.of? size align with
  | some l => .ok (action l)
  | none => .error .layoutError

def nonzero (size : Nat) (action : Except Refusal Action) : Except Refusal Action :=
  if size = 0 then .error .zeroSize else action

/-- The action at a pointer, of which `remembered` is the size its handle remembers. -/
def action (ptr : Option Nat) (remembered : Nat) : Task → Except Refusal Action
  | .alloc mode n => .ok (.alloc mode n)
  | .allocUsable mode n => .ok (.allocUsable mode n)
  | .allocZeroed mode n => .ok (.allocZeroed mode n)
  | .allocZeroedUsable mode n => .ok (.allocZeroedUsable mode n)
  | .allocZeroedArray mode count elem => .ok (.allocZeroedArray mode count elem)
  | .allocAligned mode n a => .ok (.allocAligned mode n a)
  | .realloc mode n => .ok (.realloc mode ptr n)
  | .reallocUsable mode n => .ok (.reallocUsable mode ptr n)
  | .dupString content =>
      if 0 ∈ content then .error .interiorNul else .ok (.dupString content)
  | .free => .ok (.free ptr)
  | .freeWithSize usable => .ok (.freeWithSize ptr usable)
  | .usableSize => need ptr .usableSize
  | .allocationSize => need ptr .allocationSize
  | .adviseUnused hint => .ok (.adviseUnused ptr hint)
  | .info => .ok .info
  | .setBackgroundThread enable => .ok (.setBackgroundThread enable)
  | .purge => .ok .purge
  | .record => .ok .record
  | .setHandler h => .ok (.setHandler h)
  | .handler => .ok .handler
  | .layoutAlloc n a => layout n a .layoutAlloc
  | .layoutAllocZeroed n a => layout n a .layoutAllocZeroed
  | .layoutRealloc n a old =>
      layout (old.getD remembered) a fun l => .layoutRealloc ptr l n
  | .layoutFree a old => layout (old.getD remembered) a (.layoutFree ptr)
  | .blockAlloc n => nonzero n (.ok (.blockAlloc n))
  | .blockAllocZeroed n => nonzero n (.ok (.blockAllocZeroed n))
  | .blockAllocAligned n a => nonzero n (.ok (.blockAllocAligned n a))
  | .blockRealloc n => nonzero n (need ptr fun p => .blockRealloc p n)
  | .blockFree => need ptr .blockFree
  | .blockFreeWithSize usable => need ptr fun p => .blockFreeWithSize p usable
  | .blockUsableSize => need ptr .blockUsableSize
  | .blockFootprint => need ptr .blockFootprint

end Task

end HeapLedger.Session
