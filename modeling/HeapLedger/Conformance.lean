import HeapLedger.Backend
import HeapLedger.Size

/-!
# `HeapLedger/Conformance.lean` — does a backend keep its promises?

Each check drives a backend through a fixed list of requests and looks at what comes back. A check
ends quietly, or with the `Violation` it found first. Blocks are freed as soon as they are not
needed; a check that ends early leaves behind what it still holds.
-/

set_option autoImplicit false

namespace HeapLedger

/-- What a check found wrong. -/
inductive Violation where
  | allocRefused
  | reallocRefused
  | misaligned (size ptr maxAlign remainder : Nat)
  | notZeroed (size : Nat)
  /-- A block is said to be smaller than asked for. -/
  | undersized (usable size : Nat)
  /-- A resize lost a byte. -/
  | lost (written found : UInt8)
  | fault (fault : Fault)
  deriving DecidableEq, Repr

/-- What is said about a violation, with pointers written by `address`. -/
def Violation.message (address : Nat → String) : Violation → String
  | .allocRefused => "allocation failed: ()"
  | .reallocRefused => "reallocation failed: ()"
  | .misaligned size ptr maxAlign remainder =>
      unequalMessage (": " ++ toString size ++ " byte allocation " ++ address ptr ++
        " isn't aligned to MAX_ALIGN = " ++ toString maxAlign) 0 remainder
  | .notZeroed size => toString size ++ " byte zeroed allocation had nonzero bytes"
  | .undersized usable size =>
      "size_of reported " ++ toString usable ++ " bytes for a " ++ toString size ++
        " byte allocation"
  | .lost written found => unequalMessage "" written.toNat found.toNat
  | .fault broken => broken.message address

abbrev Check (β α : Type) : Type := EStateM Violation (Heap β) α

namespace Conformance

variable {β α : Type}

def call (op : HeapOp β α) : Check β α := fun h =>
  match op h with
  | .ok a h => .ok a h
  | .error fault h => .error (.fault fault) h

/-- A pointer that must not have been refused. -/
def expect (refused : Violation) (op : HeapOp β (Option Nat)) : Check β Nat := do
  match ← call op with
  | some ptr => pure ptr
  | none => throw refused

def memory : Check β Memory := do
  pure (← get).memory

/-! ## Alignment -/

/-- The sizes that are tried for alignment. Half of all addresses are too many to be doubled. -/
def alignmentSizes (maxAlign : Nat) : Except Fault (List Nat) :=
  if maxAlign * 2 < Word.limit then .ok [maxAlign, maxAlign * 2, 100, 4096, 65536]
  else .error .mulOverflow

/-- How many blocks of each size are tried for alignment. -/
def alignmentRounds : Nat := 16

/-- A block that must be aligned to what the backend promises. -/
def alignedBlock (b : Backend β) (size : Nat) : Check β Nat := do
  let ptr ← expect .allocRefused (b.alloc size)
  if ptr % b.maxAlign ≠ 0 then throw (.misaligned size ptr b.maxAlign (ptr % b.maxAlign))
  else pure ptr

/-- Blocks are aligned to what the backend promises. All are live at the same time. -/
def alignment (b : Backend β) : Check β Unit := do
  let sizes ← call (HeapOp.ofExcept (alignmentSizes b.maxAlign))
  let ptrs ← (sizes.flatMap (List.replicate alignmentRounds)).mapM (alignedBlock b)
  ptrs.forM fun ptr => call (b.free ptr)

/-! ## Absurd sizes -/

/-- Sizes that hardly any backend can serve. -/
def absurdSizes : List Nat :=
  [Word.max, Word.max - 1, Word.max / 2, Size.bound - 1]

/-- Absurd sizes are refused, or served and freed again. -/
def edgeCaseSizes (b : Backend β) : Check β Unit :=
  absurdSizes.forM fun size => do
    match ← call (b.alloc size) with
    | some ptr => call (b.free ptr)
    | none => pure ()

/-! ## Sizes -/

def reportedSizes : List Nat :=
  [1, 2, 3, 7, 8, 9, 15, 16, 17, 100, 1000, 4095, 4096, 4097, 100000]

/-- What the bytes of a block are overwritten with when it is tried whether all may be used. -/
def scribble : UInt8 := 0xcc

/-- Blocks are at least as big as asked for, as far as they say they are, and all of that may be
written to. -/
def sizeOverAlloc (b : SizedBackend β) : Check β Unit :=
  reportedSizes.forM fun size => do
    let ptr ← expect .allocRefused (b.alloc size)
    let usable ← call (HeapOp.query (b.blockSize ptr))
    if usable < size then throw (.undersized usable size)
    else
      call (HeapOp.mapMemory (·.fill ptr usable scribble))
      call (b.freeSized ptr usable)

/-! ## Zeros -/

def zeroedSizes : List Nat :=
  [1, 8, 24, 1000, 4096, 100000]

def zeroedAlloc (b : Backend β) : Check β Unit :=
  zeroedSizes.forM fun size => do
    let ptr ← expect .allocRefused (b.allocZeroed size)
    let m ← memory
    if (List.range size).all fun i => m.byte (ptr + i) = 0 then call (b.free ptr)
    else throw (.notZeroed size)

/-! ## Resizing -/

/-- What is written before resizing: every byte is its own index. -/
def pattern (i : Nat) : UInt8 := UInt8.ofNat i

/-- The first `n` bytes of a block are what was written. -/
def kept (ptr n : Nat) : Check β Unit :=
  (List.range n).forM fun i => do
    let found := (← memory).byte (ptr + i)
    if pattern i ≠ found then throw (.lost (pattern i) found) else pure ()

/-- Growing and shrinking a block keeps its content. -/
def reallocPreserves (b : Backend β) : Check β Unit := do
  let ptr ← expect .allocRefused (b.alloc 16)
  call (HeapOp.mapMemory (·.overwrite ptr 16 pattern))
  let ptr ← expect .reallocRefused (b.realloc ptr 100000)
  kept ptr 16
  let ptr ← expect .reallocRefused (b.realloc ptr 4)
  kept ptr 4
  call (b.free ptr)

end Conformance

end HeapLedger
