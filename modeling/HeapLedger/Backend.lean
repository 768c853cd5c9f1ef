import HeapLedger.Fault
import HeapLedger.Introspection
import HeapLedger.Memory

/-!
# `HeapLedger/Backend.lean` — what memory is taken from

A backend is its operations over a state of its own and the memory that everybody shares. Pointers
are addresses. An operation may change the state and the memory, may refuse (`none`), and may stop
at a fault; the state at that moment is what is left.

A backend must say how to allocate, resize and free. Everything else has a default that holds for
every backend: zeroed memory is plain memory filled with zeros, no alignment beyond the backend's
own is served, the size of a block is no help in freeing it, and there is nothing to report or to
purge. Backends that know how big their blocks are say so as a `SizedBackend`.
-/

set_option autoImplicit false

namespace HeapLedger

/-- Memory, and the state that a backend keeps about it. -/
structure Heap (β : Type) where
  memory : Memory
  state : β

abbrev HeapOp (β α : Type) : Type := EStateM Fault (Heap β) α

namespace HeapOp

variable {β α : Type}

def ofExcept : Except Fault α → HeapOp β α
  | .ok a => pure a
  | .error fault => throw fault

def query (look : Heap β → Except Fault α) : HeapOp β α := do
  ofExcept (look (← get))

def mapMemory (change : Memory → Memory) : HeapOp β Unit :=
  modify fun h => { h with memory := change h.memory }

/-- Memory from `alloc`, with the bytes asked for filled with zeros. -/
def zeroed (alloc : Nat → HeapOp β (Option Nat)) (size : Nat) : HeapOp β (Option Nat) := do
  match ← alloc size with
  | none => pure none
  | some ptr =>
      mapMemory (·.fill ptr size 0)
      pure (some ptr)

end HeapOp

/-- Operations that memory is taken from, resized by and returned to. -/
structure Backend (β : Type) where
  label : String
  /-- What an address of at least this many bytes is a multiple of. -/
  maxAlign : Nat := Word.bytes
  /-- At least `size` bytes of any content. -/
  alloc : Nat → HeapOp β (Option Nat)
  /-- The block at a pointer, resized to at least `size` bytes, perhaps elsewhere. A refusal leaves
  it as it was. -/
  realloc : Nat → Nat → HeapOp β (Option Nat)
  free : Nat → HeapOp β Unit
  allocZeroed : Nat → HeapOp β (Option Nat) := HeapOp.zeroed alloc
  /-- At least `size` bytes at a multiple of `align`, a power of two beyond `maxAlign`. -/
  allocAligned : Nat → Nat → HeapOp β (Option Nat) := fun _ _ => pure none
  /-- Takes back the block at a pointer, of which the size is known. -/
  freeSized : Nat → Nat → HeapOp β Unit := fun ptr _ => free ptr
  info : β → AllocatorInfo := fun _ => ⟨0, 0, 0, 0, 0⟩
  setBackgroundThread : Bool → HeapOp β Unit := fun _ => pure ()
  purge : HeapOp β PurgeOutcome := pure .notApplicable

/-- A backend that knows how many bytes its blocks have. -/
structure SizedBackend (β : Type) extends Backend β where
  blockSize : Nat → Heap β → Except Fault Nat

/-! ## The backend that has nothing -/

/-- Refuses every request. As it hands out nothing, giving it anything back is a fault. -/
def SizedBackend.empty : SizedBackend Unit where
  label := "Null"
  alloc := fun _ => pure none
  realloc := fun _ _ => pure none
  free := fun ptr => throw (.nothingToFree ptr)
  blockSize := fun ptr _ => .error (.nothingToQuery ptr)

/-! ## Wrappers

A wrapper says for every operation what becomes of it, also for those that have a default. -/

namespace Backend

variable {β : Type}

/-- The same backend, reached through a reference. -/
def borrowed (b : Backend β) : Backend β where
  label := b.label
  maxAlign := b.maxAlign
  alloc := b.alloc
  realloc := b.realloc
  free := b.free
  allocZeroed := b.allocZeroed
  allocAligned := b.allocAligned
  freeSized := b.freeSized
  info := b.info
  setBackgroundThread := b.setBackgroundThread
  purge := b.purge

/-- The same backend, except that a request of more than `max` bytes is refused unasked. -/
def capped (b : Backend β) (max : Nat) : Backend β where
  label := "Limit \x7b backend: " ++ b.label ++ ", max: " ++ toString max ++ " \x7d"
  maxAlign := b.maxAlign
  alloc := fun size => if max < size then pure none else b.alloc size
  realloc := fun ptr size => if max < size then pure none else b.realloc ptr size
  free := b.free
  allocZeroed := fun size => if max < size then pure none else b.allocZeroed size
  allocAligned := fun size align => if max < size then pure none else b.allocAligned size align
  freeSized := b.freeSized
  info := b.info
  setBackgroundThread := b.setBackgroundThread
  purge := b.purge

end Backend

namespace SizedBackend

variable {β : Type}

def borrowed (b : SizedBackend β) : SizedBackend β :=
  { b.toBackend.borrowed with blockSize := b.blockSize }

def capped (b : SizedBackend β) (max : Nat) : SizedBackend β :=
  { b.toBackend.capped max with blockSize := b.blockSize }

end SizedBackend

end HeapLedger
