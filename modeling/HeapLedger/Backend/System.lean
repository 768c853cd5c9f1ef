import HeapLedger.Backend
import HeapLedger.Backend.Blocks

/-!
# `HeapLedger/Backend/System.lean` — the allocator of the C library

Plain allocation, resizing and freeing, aligned to two words, and no way to ask for a block's size.
A request fails if no object can be that big, or if it passes the end of the addresses that a
process can have. Blocks are placed one after another and never reused, which is one of the ways
that an allocator of this kind may behave.
-/

set_option autoImplicit false

namespace HeapLedger

structure System where
  next : Nat := 1 <<< 44
  live : Blocks := {}

namespace System

/-- What every address is a multiple of. -/
def maxAlign : Nat := 2 * Word.bytes

/-- The end of the addresses that a process can have. -/
def limit : Nat := 1 <<< 47

abbrev Op (α : Type) : Type := HeapOp System α

def change (f : System → System) : Op Unit :=
  modify fun h => { h with state := f h.state }

def alloc (size : Nat) : Op (Option Nat) := do
  let ptr := Word.roundUp (← get).state.next maxAlign
  if Word.maxObject < size ∨ limit < ptr + size then pure none
  else
    change fun s => { next := ptr + size, live := s.live.insert ptr size }
    pure (some ptr)

/-- Takes a block back. A pointer to no live block is refused. -/
def free (ptr : Nat) : Op Unit := do
  match (← get).state.live.find? ptr with
  | none => throw (.freeRefused ptr)
  | some _ => change fun s => { s with live := s.live.erase ptr }

/-- A block resized by moving it. -/
def realloc (ptr size : Nat) : Op (Option Nat) := do
  match (← get).state.live.find? ptr with
  | none => throw (.foreignPointer ptr)
  | some old =>
      match ← alloc size with
      | none => pure none
      | some new =>
          HeapOp.mapMemory (·.copy new ptr (min old size))
          change fun s => { s with live := s.live.erase ptr }
          pure (some new)

end System

/-- The allocator of the C library. Purging it always succeeds, whether or not there was anything
to return. -/
def Backend.system : Backend System where
  label := "Malloc"
  maxAlign := System.maxAlign
  alloc := System.alloc
  realloc := System.realloc
  free := System.free
  purge := pure .success

end HeapLedger
