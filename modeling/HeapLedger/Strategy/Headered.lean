import HeapLedger.Header
import HeapLedger.Strategy

/-!
# `HeapLedger/Strategy/Headered.lean` — blocks with their size written in front

Works over any backend. Each block is asked for with room for a header (`HeapLedger/Header.lean`),
which is written when the block is made, written again when it is resized, and read whenever its
size is needed. A request for an alignment that the backend does not keep is served from a larger
block.

Resizing a plain block resizes the backend's block, header and all. An over-aligned block is copied
into a new plain one instead: the backend would keep the distance from its own pointer, and with
that not the alignment.
-/

set_option autoImplicit false

namespace HeapLedger.Strategy

variable {β : Type}

namespace Headered

def width (b : Backend β) : Nat :=
  Header.width b.maxAlign

/-- Makes the backend's block at `start` a plain block of `size` bytes. -/
def stamp (b : Backend β) (start size : Nat) : HeapOp β Block := do
  let ptr := start + width b
  HeapOp.mapMemory fun m => Header.writePlain m ptr size
  let cost ← HeapOp.ofExcept (Header.footprint (width b) ⟨size, 0⟩)
  pure ⟨ptr, size, cost⟩

/-- Makes the backend's block at `start` an over-aligned block of `size` bytes. -/
def stampAligned (b : Backend β) (start size align : Nat) : HeapOp β Block := do
  let ptr ← HeapOp.ofExcept (Header.alignedPointer (width b) start align)
  HeapOp.mapMemory fun m => Header.writeAligned m start ptr size align
  let cost ← HeapOp.ofExcept (Header.footprint (width b) ⟨size, align⟩)
  pure ⟨ptr, size, cost⟩

def header (ptr : Nat) : HeapOp β Header :=
  HeapOp.query fun h => Header.read h.memory ptr

/-- A plain block from memory that `take` gets from the backend. -/
def allocBy (b : Backend β) (take : Nat → HeapOp β (Option Nat)) (size : Nat) :
    HeapOp β (Option Block) :=
  match Header.plainSize (width b) size with
  | none => pure none
  | some total => do
      match ← take total with
      | none => pure none
      | some start => some <$> stamp b start size

/-- A block at a multiple of `align`: a plain one where the backend's alignment is enough. -/
def allocAligned (b : Backend β) (size align : Nat) : HeapOp β (Option Block) :=
  if ¬ align.isPowerOfTwo then pure none
  else if align ≤ b.maxAlign then allocBy b b.alloc size
  else
    match Header.alignedSize (width b) size align with
    | none => pure none
    | some total => do
        match ← b.alloc total with
        | none => pure none
        | some start => some <$> stampAligned b start size align

/-- Returns the block with this header to the backend, which is told its exact cost. -/
def release (b : Backend β) (ptr : Nat) (h : Header) : HeapOp β Nat := do
  let cost ← HeapOp.ofExcept (Header.footprint (width b) h)
  let start := Header.start (width b) (← get).memory ptr h
  b.freeSized start cost
  pure cost

def free (b : Backend β) (ptr : Nat) : HeapOp β Nat := do
  release b ptr (← header ptr)

def realloc (b : Backend β) (ptr size : Nat) : HeapOp β (Option Resized) := do
  let h ← header ptr
  let old ← HeapOp.ofExcept (Header.footprint (width b) h)
  if h.align ≠ 0 then
    match ← allocBy b b.alloc size with
    | none => pure none
    | some block =>
        HeapOp.mapMemory fun m => m.copy block.ptr ptr (min h.size size)
        -- What this costs back is `old`, and it is the caller who counts.
        let _ ← free b ptr
        pure (some ⟨block, old⟩)
  else
    match Header.plainSize (width b) size with
    | none => pure none
    | some total =>
        let start := Header.start (width b) (← get).memory ptr h
        match ← b.realloc start total with
        | none => pure none
        | some moved =>
            let block ← stamp b moved size
            pure (some ⟨block, old⟩)

end Headered

/-- Every block has its size written in front of it, and costs its header too. -/
def headered (b : Backend β) : Strategy β where
  label := "SizeHeader(" ++ b.label ++ ")"
  maxAlign := b.maxAlign
  alloc := Headered.allocBy b b.alloc
  allocZeroed := Headered.allocBy b b.allocZeroed
  allocAligned := Headered.allocAligned b
  realloc := Headered.realloc b
  free := Headered.free b
  freeWithSize := fun ptr usable => do
    let h ← Headered.header ptr
    if usable ≠ h.size then throw (.wrongUsable usable h.size)
    else Headered.release b ptr h
  usableSize := fun ptr h => Header.size <$> Header.read h.memory ptr
  footprint := fun ptr h => do
    Header.footprint (Headered.width b) (← Header.read h.memory ptr)
  info := b.info
  setBackgroundThread := b.setBackgroundThread
  purge := b.purge

end HeapLedger.Strategy
