import HeapLedger.Layout
import HeapLedger.Ledger

/-!
# `HeapLedger/Ledger/Alloc.lean` — allocating, resizing and freeing

Every way of getting memory comes in two forms. The `try` form reports failure as an `AllocError`
and leaves everything as it was. The other form calls the out-of-memory handler with the size the
caller asked for. The `Usable` variants also tell how many bytes may be used, which is at least what
was asked for.

Resizing is the one operation whose failure can change something. A resize to nothing frees the
block, and so does one to a size that is refused: its content cannot be kept, and must not leak.
-/

set_option autoImplicit false

namespace HeapLedger.Ledger

variable {β : Type} (s : Strategy β)

/-! ## Forms that report failure -/

/-- Counts a new block for a request of `size` bytes, or reports that there was none to be had. -/
def settle (size : Nat) : Option Block → LedgerOp β (Except AllocError (Nat × Nat))
  | none => pure (.error (.exhausted size))
  | some block => do
      charge block.footprint
      pure (.ok (block.ptr, block.usable))

/-- A block from `take`, for a caller who wants `size` bytes. -/
def tryTake (take : Nat → HeapOp β (Option Block)) (size : Nat) :
    LedgerOp β (Except AllocError (Nat × Nat)) :=
  match Size.request size with
  | .error e => pure (.error e.toAllocError)
  | .ok request => do settle size (← onHeap (take request))

/-- At least `size` bytes, and how many. -/
def tryAllocUsable (size : Nat) : LedgerOp β (Except AllocError (Nat × Nat)) :=
  tryTake s.alloc size

def tryAlloc (size : Nat) : LedgerOp β (Except AllocError Nat) :=
  Except.map Prod.fst <$> tryAllocUsable s size

def tryAllocZeroedUsable (size : Nat) : LedgerOp β (Except AllocError (Nat × Nat)) :=
  tryTake s.allocZeroed size

def tryAllocZeroed (size : Nat) : LedgerOp β (Except AllocError Nat) :=
  Except.map Prod.fst <$> tryAllocZeroedUsable s size

/-- `count` elements of `elem` zero bytes each. -/
def tryAllocZeroedArray (count elem : Nat) : LedgerOp β (Except AllocError Nat) :=
  match Size.ofArray count elem with
  | .error e => pure (.error e.toAllocError)
  | .ok size => tryAllocZeroed s size

/-- At least `size` bytes at a multiple of `align`. A multiple of an alignment that the strategy
keeps anyway is allocated plainly. -/
def tryAllocAligned (size align : Nat) : LedgerOp β (Except AllocError Nat) :=
  match Layout.of? size align with
  | none => pure (.error (.overflow size))
  | some layout =>
      match layout.plainSize s.maxAlign with
      | some plain => Except.mapError (AllocError.withRequested size) <$> tryAlloc s plain
      | none => Except.map Prod.fst <$> tryTake (fun request => s.allocAligned request align) size

/-! ## Freeing -/

def free : Option Nat → LedgerOp β Unit
  | none => pure ()
  | some ptr => do credit (← onHeap (s.free ptr))

def freeWithSize : Option Nat → Nat → LedgerOp β Unit
  | none, _ => pure ()
  | some ptr, usable => do credit (← onHeap (s.freeWithSize ptr usable))

/-! ## Resizing -/

/-- A block resized to at least `size` bytes, and how many there are now. -/
def tryReallocUsable (ptr : Option Nat) (size : Nat) :
    LedgerOp β (Except AllocError (Option Nat × Nat)) :=
  match ptr with
  | none => Except.map (fun block => (some block.1, block.2)) <$> tryAllocUsable s size
  | some ptr =>
      if size = 0 then do
        free s (some ptr)
        pure (.ok (none, 0))
      else
        match Size.request size with
        | .error e => do
            free s (some ptr)
            pure (.error e.toAllocError)
        | .ok request => do
            match ← onHeap (s.realloc ptr request) with
            | none => pure (.error (.exhausted size))
            | some resized =>
                credit resized.oldFootprint
                charge resized.block.footprint
                pure (.ok (some resized.block.ptr, resized.block.usable))

def tryRealloc (ptr : Option Nat) (size : Nat) : LedgerOp β (Except AllocError (Option Nat)) :=
  Except.map Prod.fst <$> tryReallocUsable s ptr size

/-! ## Forms that may not fail -/

def allocUsable (size : Nat) : LedgerOp β (Nat × Nat) :=
  orFail (tryAllocUsable s size)

def alloc (size : Nat) : LedgerOp β Nat :=
  Prod.fst <$> allocUsable s size

def allocZeroedUsable (size : Nat) : LedgerOp β (Nat × Nat) :=
  orFail (tryAllocZeroedUsable s size)

def allocZeroed (size : Nat) : LedgerOp β Nat :=
  Prod.fst <$> allocZeroedUsable s size

def allocZeroedArray (count elem : Nat) : LedgerOp β Nat :=
  orFail (tryAllocZeroedArray s count elem)

def allocAligned (size align : Nat) : LedgerOp β Nat :=
  orFail (tryAllocAligned s size align)

/-- `tryReallocUsable`, or the handler. A resize of nothing to nothing is not worth a handler. -/
def reallocUsable (ptr : Option Nat) (size : Nat) : LedgerOp β (Option Nat × Nat) := do
  match ← tryReallocUsable s ptr size with
  | .ok r => pure r
  | .error e => if size = 0 then pure (none, 0) else fail e.requested

def realloc (ptr : Option Nat) (size : Nat) : LedgerOp β (Option Nat) :=
  Prod.fst <$> reallocUsable s ptr size

/-- A new block that holds the bytes of a string and a zero byte after them. -/
def dupString (text : List UInt8) : LedgerOp β Nat := do
  let ptr ← alloc s (text.length + 1)
  let bytes := (text ++ [0]).toArray
  onHeap (HeapOp.mapMemory (·.store ptr bytes))
  pure ptr

end HeapLedger.Ledger
