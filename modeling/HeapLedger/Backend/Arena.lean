import HeapLedger.Backend
import HeapLedger.Backend.Blocks

/-!
# `HeapLedger/Backend/Arena.lean` — a backend under a microscope

An arena hands out consecutive pieces of one run of addresses and never uses a piece twice. It is
for trying strategies and ledgers out: it writes down every call it gets, can be told which
attempts to fail, and can be told to break its promises, by misplacing blocks, by understating
their sizes, by not zeroing, by not copying, or by granting what it does not have.

`Arena.basic` says only what a backend must say and leaves the rest to the defaults.
`Arena.full` says everything itself.

Freed bytes are overwritten with `Arena.freedByte`, so that a read of freed memory shows.
-/

set_option autoImplicit false

namespace HeapLedger

/-- A call that an arena got. Places are relative to the arena's base. -/
inductive Call where
  | alloc (size : Nat) (place : Option Int)
  | allocZeroed (size : Nat) (place : Option Int)
  | allocAligned (size align : Nat) (place : Option Int)
  | realloc (old : Int) (size : Nat) (place : Option Int)
  | reallocUnknown (old : Int) (size : Nat)
  | free (old : Int) (live : Bool)
  | freeSized (old : Int) (size : Nat) (live : Bool)
  | setBackgroundThread (enable : Bool)
  | purge
  deriving DecidableEq, Repr

namespace Call

def placeText : Option Int → String
  | some place => " @ " ++ toString place
  | none => " fail"

def liveText (live : Bool) : String :=
  if live then "" else " unknown"

def text : Call → String
  | .alloc size place => "alloc " ++ toString size ++ placeText place
  | .allocZeroed size place => "alloc_zeroed " ++ toString size ++ placeText place
  | .allocAligned size align place =>
      "alloc_aligned " ++ toString size ++ " " ++ toString align ++ placeText place
  | .realloc old size place =>
      "realloc " ++ toString old ++ " " ++ toString size ++ placeText place
  | .reallocUnknown old size => "realloc " ++ toString old ++ " " ++ toString size ++ " unknown"
  | .free old live => "free " ++ toString old ++ liveText live
  | .freeSized old size live =>
      "free_sized " ++ toString old ++ " " ++ toString size ++ liveText live
  | .setBackgroundThread enable => "background " ++ (if enable then "true" else "false")
  | .purge => "purge"

end Call

/-- An arena's live blocks, where the next one goes, and what has been asked of it. -/
structure Arena where
  /-- The offset after the last block. -/
  cursor : Nat := 0
  /-- Attempts to allocate or resize so far. -/
  attempts : Nat := 0
  live : Blocks := {}
  /-- The calls so far, newest first. -/
  calls : List Call := []

namespace Arena

/-- What an arena is like, and which promises it breaks. -/
structure Config where
  start : Nat := 0
  /-- The offset that no block may pass. -/
  limit : Nat := 1 <<< 20
  /-- Byte counts are rounded up to a multiple of this. -/
  quantum : Nat := 1
  maxAlign : Nat := 16
  /-- Resizes move the block even where it could stay. -/
  alwaysMove : Bool := false
  /-- The attempts that fail, counted from zero. -/
  failing : List Nat := []
  info : AllocatorInfo := {}
  purge : PurgeOutcome := .success
  /-- Every block is this many bytes past where it should be. -/
  misalign : Nat := 0
  /-- Every block is said to be this many bytes smaller than it is. -/
  understate : Nat := 0
  /-- The last byte of zeroed memory is not zero. -/
  dirtyZero : Bool := false
  /-- Resizes that move a block forget its content. -/
  lossy : Bool := false
  /-- Requests beyond `span` are granted with a few bytes. -/
  huge : Bool := false

/-- The address of offset zero. -/
def base : Nat := 1 <<< 46

/-- Bytes that an arena can have at most. -/
def span : Nat := 1 <<< 22

/-- What memory holds before anything is written. -/
def freshByte : UInt8 := 0xa5

def freedByte : UInt8 := 0xdd

/-- The bytes behind a request that an arena grants without having them. -/
def hugeBytes : Nat := 16

def freshMemory : Memory :=
  .filled freshByte

def new (c : Config) : Arena :=
  { cursor := c.start }

/-- The distance from the base to an address, around the end of the word where that is shorter. -/
def offset (address : Nat) : Int :=
  ((address : Int) - base).bmod Word.limit

/-- Whether the `len` bytes from an address lie in the run of addresses that arenas use. -/
def spans (address : Int) (len : Nat) : Bool :=
  decide ((base : Int) ≤ address ∧ address + len ≤ base + span)

/-! ## Placement -/

/-- The byte count of a block for a request, if it fits a word. -/
def capacity (c : Config) (size : Nat) : Option Nat :=
  if c.huge ∧ span < size then some hugeBytes
  else
    let bytes := Word.roundUp size (max c.quantum 1)
    if bytes < Word.limit then some bytes else none

/-- The next block of `bytes` bytes at a multiple of `align`: its offset, if there is room. -/
def spot (c : Config) (a : Arena) (bytes align : Nat) : Option Nat :=
  let offset := Word.roundUp a.cursor align + c.misalign
  if offset + bytes ≤ c.limit then some offset else none

def settle (a : Arena) (offset bytes : Nat) : Arena :=
  { a with cursor := offset + bytes, live := a.live.insert (base + offset) bytes }

abbrev Op (α : Type) : Type := HeapOp Arena α

def change (f : Arena → Arena) : Op Unit :=
  modify fun h => { h with state := f h.state }

def note (call : Call) : Op Unit :=
  change fun a => { a with calls := call :: a.calls }

/-- Counts an attempt, and says whether it may go on. -/
def attempt (c : Config) : Op Bool := do
  let n := (← get).state.attempts
  change fun a => { a with attempts := n + 1 }
  pure (decide (n ∉ c.failing))

def place (c : Config) (size align : Nat) : Op (Option Nat) := do
  let a := (← get).state
  match (capacity c size).bind fun bytes => (spot c a bytes align).map fun offset =>
      (offset, bytes) with
  | none => pure none
  | some (offset, bytes) =>
      change fun a => a.settle offset bytes
      pure (some (base + offset))

def tryPlace (c : Config) (size align : Nat) : Op (Option Nat) := do
  if ← attempt c then place c size align else pure none

def placed (ptr : Option Nat) : Option Int :=
  ptr.map offset

/-! ## Operations -/

def alloc (c : Config) (size : Nat) : Op (Option Nat) := do
  let ptr ← tryPlace c size c.maxAlign
  note (.alloc size (placed ptr))
  pure ptr

/-- Zeroed memory, or almost. -/
def allocZeroed (c : Config) (size : Nat) : Op (Option Nat) := do
  let ptr ← tryPlace c size c.maxAlign
  note (.allocZeroed size (placed ptr))
  match ptr with
  | none => pure none
  | some ptr =>
      HeapOp.mapMemory (·.fill ptr size 0)
      if c.dirtyZero then HeapOp.mapMemory (·.fill (ptr + size - 1) 1 1)
      pure (some ptr)

/-- Memory at a multiple of any power of two within reach. -/
def allocAligned (c : Config) (size align : Nat) : Op (Option Nat) := do
  let ptr ← if align.isPowerOfTwo ∧ align ≤ span then tryPlace c size align else pure none
  note (.allocAligned size align (placed ptr))
  pure ptr

/-- Makes the freed bytes of a block recognisable and forgets it. -/
def retire (ptr bytes : Nat) : Op Unit := do
  HeapOp.mapMemory (·.fill ptr bytes freedByte)
  change fun a => { a with live := a.live.erase ptr }

/-- The place of a block of `old` bytes at `ptr` after a resize, if there is one. A block stays
where it is when it need not grow. -/
def resize (c : Config) (ptr old size : Nat) : Op (Option Nat) := do
  match capacity c size with
  | none => pure none
  | some bytes =>
      if bytes ≤ old ∧ c.alwaysMove = false then
        change fun a => { a with live := (a.live.erase ptr).insert ptr bytes }
        pure (some ptr)
      else
        match ← place c size c.maxAlign with
        | none => pure none
        | some new =>
            if c.lossy = false then HeapOp.mapMemory (·.copy new ptr (min old bytes))
            retire ptr old
            pure (some new)

/-- A resize of a live block; anything else is refused. -/
def realloc (c : Config) (ptr size : Nat) : Op (Option Nat) := do
  let goes ← attempt c
  match (← get).state.live.find? ptr with
  | none =>
      note (.reallocUnknown (offset ptr) size)
      pure none
  | some old =>
      let moved ← if goes then resize c ptr old size else pure none
      note (.realloc (offset ptr) size (placed moved))
      pure moved

/-- Takes back a block if it is live, and says whether it was. -/
def takeBack (ptr : Nat) : Op Bool := do
  match (← get).state.live.find? ptr with
  | none => pure false
  | some bytes =>
      retire ptr bytes
      pure true

def free (ptr : Nat) : Op Unit := do
  note (.free (offset ptr) (← takeBack ptr))

/-- Takes a block back and notes the size that was named. -/
def freeSized (ptr size : Nat) : Op Unit := do
  note (.freeSized (offset ptr) size (← takeBack ptr))

def blockSize (c : Config) (ptr : Nat) (h : Heap Arena) : Except Fault Nat :=
  .ok ((h.state.live.find? ptr).getD 0 - c.understate)

/-- The arena that says only what a backend must. -/
def basic (c : Config) : SizedBackend Arena where
  label := "Basic"
  maxAlign := c.maxAlign
  alloc := alloc c
  realloc := realloc c
  free := free
  blockSize := blockSize c

/-- The arena that leaves nothing to the defaults. -/
def full (c : Config) : SizedBackend Arena where
  label := "Full"
  maxAlign := c.maxAlign
  alloc := alloc c
  realloc := realloc c
  free := free
  allocZeroed := allocZeroed c
  allocAligned := allocAligned c
  freeSized := freeSized
  info := fun _ => c.info
  setBackgroundThread := fun enable => note (.setBackgroundThread enable)
  purge := do
    note .purge
    pure c.purge
  blockSize := blockSize c

end Arena

end HeapLedger
