import HeapLedger.Ledger.Layouts
import HeapLedger.Ledger.Query

/-!
# `HeapLedger/Ledger/Action.lean` — calls as values

An `Action` is one call of a ledger's interface with its arguments, and a `Reply` is what comes
back. Runs of a ledger are lists of actions, which is what sessions record and what laws about
whole histories quantify over.

The block actions go to the strategy itself and leave the count of live bytes alone.
-/

set_option autoImplicit false

namespace HeapLedger

/-- Who deals with a failed allocation. -/
inductive Mode where
  | attempt
  | orFail
  deriving DecidableEq, Repr

/-- One call of a ledger's interface. -/
inductive Action where
  | alloc (mode : Mode) (size : Nat)
  | allocUsable (mode : Mode) (size : Nat)
  | allocZeroed (mode : Mode) (size : Nat)
  | allocZeroedUsable (mode : Mode) (size : Nat)
  | allocZeroedArray (mode : Mode) (count elem : Nat)
  | allocAligned (mode : Mode) (size align : Nat)
  | realloc (mode : Mode) (ptr : Option Nat) (size : Nat)
  | reallocUsable (mode : Mode) (ptr : Option Nat) (size : Nat)
  | dupString (text : List UInt8)
  | free (ptr : Option Nat)
  | freeWithSize (ptr : Option Nat) (usable : Nat)
  | usableSize (ptr : Nat)
  | allocationSize (ptr : Nat)
  | adviseUnused (ptr : Option Nat) (hint : Nat)
  | info
  | setBackgroundThread (enable : Bool)
  | purge
  | record
  | setHandler (handler : OomHandler)
  | handler
  | layoutAlloc (layout : Layout)
  | layoutAllocZeroed (layout : Layout)
  | layoutRealloc (ptr : Option Nat) (layout : Layout) (size : Nat)
  | layoutFree (ptr : Option Nat) (layout : Layout)
  | blockAlloc (size : Nat)
  | blockAllocZeroed (size : Nat)
  | blockAllocAligned (size align : Nat)
  | blockRealloc (ptr size : Nat)
  | blockFree (ptr : Nat)
  | blockFreeWithSize (ptr usable : Nat)
  | blockUsableSize (ptr : Nat)
  | blockFootprint (ptr : Nat)

/-- What a call came back with, where pointers are of type `π`. -/
inductive Reply (π : Type) where
  | done
  | pointer (ptr : Option π)
  /-- A pointer, or none, and the bytes that may be used there. -/
  | sized (ptr : Option π) (usable : Nat)
  | failed (error : AllocError)
  | bytes (n : Nat)
  | info (info : AllocatorInfo)
  | purge (outcome : PurgeOutcome)
  | text (text : String)
  | handler (handler : OomHandler)
  | block (ptr : π) (usable footprint : Nat)
  /-- A resized block of the strategy, and what it cost before. -/
  | resized (ptr : π) (usable footprint oldFootprint : Nat)
  | refused
  deriving DecidableEq

def Reply.map {π ρ : Type} (f : π → ρ) : Reply π → Reply ρ
  | .done => .done
  | .pointer ptr => .pointer (ptr.map f)
  | .sized ptr usable => .sized (ptr.map f) usable
  | .failed error => .failed error
  | .bytes n => .bytes n
  | .info i => .info i
  | .purge outcome => .purge outcome
  | .text t => .text t
  | .handler h => .handler h
  | .block ptr usable footprint => .block (f ptr) usable footprint
  | .resized ptr usable footprint old => .resized (f ptr) usable footprint old
  | .refused => .refused

namespace Action

variable {β : Type}

def reported {α : Type} (reply : α → Reply Nat) (op : LedgerOp β (Except AllocError α)) :
    LedgerOp β (Reply Nat) := do
  match ← op with
  | .ok a => pure (reply a)
  | .error e => pure (.failed e)

def blockReply : Option Block → Reply Nat
  | some block => .block block.ptr block.usable block.footprint
  | none => .refused

def resizedReply : Option Resized → Reply Nat
  | some r => .resized r.block.ptr r.block.usable r.block.footprint r.oldFootprint
  | none => .refused

def pointerReply (ptr : Nat) : Reply Nat :=
  .pointer (some ptr)

def sizedReply (block : Nat × Nat) : Reply Nat :=
  .sized (some block.1) block.2

def perform (s : Strategy β) (host : Host) : Action → LedgerOp β (Reply Nat)
  | .alloc .attempt size => reported pointerReply (Ledger.tryAlloc s size)
  | .alloc .orFail size => pointerReply <$> Ledger.alloc s size
  | .allocUsable .attempt size => reported sizedReply (Ledger.tryAllocUsable s size)
  | .allocUsable .orFail size => sizedReply <$> Ledger.allocUsable s size
  | .allocZeroed .attempt size => reported pointerReply (Ledger.tryAllocZeroed s size)
  | .allocZeroed .orFail size => pointerReply <$> Ledger.allocZeroed s size
  | .allocZeroedUsable .attempt size => reported sizedReply (Ledger.tryAllocZeroedUsable s size)
  | .allocZeroedUsable .orFail size => sizedReply <$> Ledger.allocZeroedUsable s size
  | .allocZeroedArray .attempt count elem =>
      reported pointerReply (Ledger.tryAllocZeroedArray s count elem)
  | .allocZeroedArray .orFail count elem =>
      pointerReply <$> Ledger.allocZeroedArray s count elem
  | .allocAligned .attempt size align =>
      reported pointerReply (Ledger.tryAllocAligned s size align)
  | .allocAligned .orFail size align => pointerReply <$> Ledger.allocAligned s size align
  | .realloc .attempt ptr size => reported Reply.pointer (Ledger.tryRealloc s ptr size)
  | .realloc .orFail ptr size => Reply.pointer <$> Ledger.realloc s ptr size
  | .reallocUsable .attempt ptr size =>
      reported (fun r => .sized r.1 r.2) (Ledger.tryReallocUsable s ptr size)
  | .reallocUsable .orFail ptr size =>
      (fun r => .sized r.1 r.2) <$> Ledger.reallocUsable s ptr size
  | .dupString text => pointerReply <$> Ledger.dupString s text
  | .free ptr => (fun _ => .done) <$> Ledger.free s ptr
  | .freeWithSize ptr usable => (fun _ => .done) <$> Ledger.freeWithSize s ptr usable
  | .usableSize ptr => Reply.bytes <$> Ledger.usableSize s ptr
  | .allocationSize ptr => Reply.bytes <$> Ledger.allocationSize s ptr
  | .adviseUnused ptr hint => Reply.bytes <$> Ledger.adviseUnused s host ptr hint
  | .info => Reply.info <$> Ledger.info s
  | .setBackgroundThread enable => (fun _ => .done) <$> Ledger.setBackgroundThread s enable
  | .purge => Reply.purge <$> Ledger.purge s
  | .record => do pure (.text (Ledger.record s (← get)))
  | .setHandler h => (fun _ => .done) <$> Ledger.setHandler h
  | .handler => Reply.handler <$> Ledger.handler
  | .layoutAlloc layout => Reply.pointer <$> Ledger.layoutAlloc s layout
  | .layoutAllocZeroed layout => Reply.pointer <$> Ledger.layoutAllocZeroed s layout
  | .layoutRealloc ptr layout size => Reply.pointer <$> Ledger.layoutRealloc s ptr layout size
  | .layoutFree ptr layout => (fun _ => .done) <$> Ledger.layoutFree s ptr layout
  | .blockAlloc size => blockReply <$> Ledger.onHeap (s.alloc size)
  | .blockAllocZeroed size => blockReply <$> Ledger.onHeap (s.allocZeroed size)
  | .blockAllocAligned size align => blockReply <$> Ledger.onHeap (s.allocAligned size align)
  | .blockRealloc ptr size => resizedReply <$> Ledger.onHeap (s.realloc ptr size)
  | .blockFree ptr => Reply.bytes <$> Ledger.onHeap (s.free ptr)
  | .blockFreeWithSize ptr usable => Reply.bytes <$> Ledger.onHeap (s.freeWithSize ptr usable)
  | .blockUsableSize ptr => Reply.bytes <$> Ledger.usableSize s ptr
  | .blockFootprint ptr => Reply.bytes <$> Ledger.allocationSize s ptr

end Action

end HeapLedger
