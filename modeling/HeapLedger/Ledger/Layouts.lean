import HeapLedger.Ledger.Alloc

/-!
# `HeapLedger/Ledger/Layouts.lean` — memory by layout

For callers that know size and alignment of everything they hold, and for whom failure is the
absence of a pointer. No handler is ever called from here.

Resizing keeps the alignment. Where the strategy's own alignment is not enough, that takes a new
block, a copy and a free. Sizes that plain resizing would answer by freeing the block are refused
beforehand, so a failed resize leaves the old block as it was.
-/

set_option autoImplicit false

namespace HeapLedger.Ledger

variable {β : Type} (s : Strategy β)

def pointer? (attempt : LedgerOp β (Except AllocError Nat)) : LedgerOp β (Option Nat) := do
  match ← attempt with
  | .ok ptr => pure (some ptr)
  | .error _ => pure none

def layoutAlloc (layout : Layout) : LedgerOp β (Option Nat) :=
  pointer? (tryAllocAligned s layout.size layout.align)

def layoutAllocZeroed (layout : Layout) : LedgerOp β (Option Nat) :=
  match layout.plainSize s.maxAlign with
  | some size => pointer? (tryAllocZeroed s size)
  | none => do
      match ← layoutAlloc s layout with
      | none => pure none
      | some ptr =>
          onHeap (HeapOp.mapMemory (·.fill ptr layout.size 0))
          pure (some ptr)

def layoutFree (ptr : Option Nat) (_ : Layout) : LedgerOp β Unit :=
  free s ptr

/-- A block of a layout moved to a new block of another size with the same alignment. -/
def layoutMove (ptr : Option Nat) (layout : Layout) (size : Nat) : LedgerOp β (Option Nat) := do
  match ← pointer? (tryAllocAligned s size layout.align) with
  | none => pure none
  | some new =>
      onHeap (HeapOp.mapMemory (·.copy new (ptr.getD 0) (min layout.size size)))
      free s ptr
      pure (some new)

/-- A block of a layout resized to `size` bytes, with the same alignment. -/
def layoutRealloc (ptr : Option Nat) (layout : Layout) (size : Nat) : LedgerOp β (Option Nat) :=
  match Layout.of? size layout.align with
  | none => pure none
  | some new =>
      match new.plainSize s.maxAlign with
      | none => layoutMove s ptr layout size
      | some plain =>
          -- `tryRealloc` would free the block over such a size.
          if Size.tooLarge plain then pure none
          else do
            match ← tryRealloc s ptr plain with
            | .ok moved => pure moved
            | .error _ => pure none

end HeapLedger.Ledger
