import HeapLedger.Backend

/-!
# `HeapLedger/Strategy.lean` — blocks with known sizes

The ledger is written against one interface: allocate, resize and free blocks, and say of every
live pointer how many bytes its owner may use and how many it costs. A `Strategy` is that interface
as a value, built over a backend. What it costs (the footprint) must be the same whenever it is
asked for, from the operation that made the block to the one that frees it.

`Strategy.native` is for backends that know their block sizes: what the backend says is both what
may be used and what it costs. Strategies for other backends add a header of their own.
-/

set_option autoImplicit false

namespace HeapLedger

/-- A live allocation. -/
structure Block where
  ptr : Nat
  /-- Bytes the caller may use. -/
  usable : Nat
  /-- Bytes taken from the backend for it. -/
  footprint : Nat
  deriving DecidableEq, Repr

/-- A resize that went through. -/
structure Resized where
  block : Block
  /-- What it cost before. -/
  oldFootprint : Nat
  deriving DecidableEq, Repr

/-- Allocating, resizing, freeing and sizing blocks. -/
structure Strategy (β : Type) where
  label : String
  /-- What every pointer is a multiple of. -/
  maxAlign : Nat
  alloc : Nat → HeapOp β (Option Block)
  /-- At least `size` bytes, the first `size` of them zero. -/
  allocZeroed : Nat → HeapOp β (Option Block)
  /-- At least `size` bytes at a multiple of `align`. -/
  allocAligned : Nat → Nat → HeapOp β (Option Block)
  /-- The block at a pointer, resized. A refusal leaves it as it was. -/
  realloc : Nat → Nat → HeapOp β (Option Resized)
  /-- Frees the block at a pointer and says what it cost. -/
  free : Nat → HeapOp β Nat
  /-- Frees the block at a pointer, given the bytes that may be used there. -/
  freeWithSize : Nat → Nat → HeapOp β Nat
  usableSize : Nat → Heap β → Except Fault Nat
  /-- What the block at a pointer costs. -/
  footprint : Nat → Heap β → Except Fault Nat
  info : β → AllocatorInfo
  setBackgroundThread : Bool → HeapOp β Unit
  purge : HeapOp β PurgeOutcome

namespace Strategy

variable {β : Type}

/-! ## Over backends that know their sizes -/

/-- The block that a backend has just handed out. -/
def sizedBlock (b : SizedBackend β) (ptr : Nat) : HeapOp β Block := do
  let size ← HeapOp.query (b.blockSize ptr)
  pure ⟨ptr, size, size⟩

/-- Every block is as big as the backend says, and costs that much. -/
def native (b : SizedBackend β) : Strategy β where
  label := "Native(" ++ b.label ++ ")"
  maxAlign := b.maxAlign
  alloc := fun size => do
    match ← b.alloc size with
    | none => pure none
    | some ptr => some <$> sizedBlock b ptr
  allocZeroed := fun size => do
    match ← b.allocZeroed size with
    | none => pure none
    | some ptr => some <$> sizedBlock b ptr
  allocAligned := fun size align => do
    match ← b.allocAligned size align with
    | none => pure none
    | some ptr =>
        if ptr % align ≠ 0 then throw (.misaligned (ptr % align))
        else some <$> sizedBlock b ptr
  realloc := fun ptr size => do
    let old ← HeapOp.query (b.blockSize ptr)
    match ← b.realloc ptr size with
    | none => pure none
    | some moved =>
        let block ← sizedBlock b moved
        pure (some ⟨block, old⟩)
  free := fun ptr => do
    let size ← HeapOp.query (b.blockSize ptr)
    b.freeSized ptr size
    pure size
  freeWithSize := fun ptr usable => do
    let size ← HeapOp.query (b.blockSize ptr)
    if usable ≠ size then throw (.wrongUsable usable size)
    else
      b.freeSized ptr usable
      pure usable
  usableSize := b.blockSize
  footprint := b.blockSize
  info := b.info
  setBackgroundThread := b.setBackgroundThread
  purge := b.purge

end Strategy

end HeapLedger
