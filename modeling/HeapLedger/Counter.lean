/-!
# `HeapLedger/Counter.lean` — a byte total that threads update without meeting

Every thread claims an index the first time it touches any counter, and keeps it until it ends. In
a counter the index names a slot that only this thread writes; a thread whose index has no slot, and
one that has no index because it is ending, shares the overflow accumulator with all others like it.

All arithmetic wraps. Memory taken by one thread and returned by another drives the second
thread's slot below zero, so one slot says nothing; the sum of all of them is the total.
`Counter.total` adds up only the slots of threads that exist, which is enough because no other
slot was ever written.
-/

set_option autoImplicit false

namespace HeapLedger

/-- The threads that have an index: a thread's index is its place in the list. -/
structure Registry where
  claimed : List Nat := []
  /-- The threads that are ending. They have nowhere to keep an index any more, but may still free
  what they hold. -/
  ending : List Nat := []
  deriving DecidableEq, Repr

namespace Registry

def size (r : Registry) : Nat :=
  r.claimed.length

def claim (r : Registry) (thread : Nat) : Registry :=
  if thread ∈ r.ending ∨ thread ∈ r.claimed then r
  else { r with claimed := r.claimed ++ [thread] }

/-- The registry once `thread` is ending. Its index is not given to another thread. -/
def retire (r : Registry) (thread : Nat) : Registry :=
  { r with ending := thread :: r.ending }

/-- The index of a thread, from its claim to its end. -/
def index? (r : Registry) (thread : Nat) : Option Nat :=
  if thread ∈ r.ending then none else r.claimed.idxOf? thread

end Registry

/-- A wrapping byte total, one slot a thread. -/
structure Counter where
  /-- What each thread with a slot has added, less what it has subtracted. -/
  slots : List UInt64
  overflow : UInt64
  deriving DecidableEq, Repr

namespace Counter

/-- Slots enough for the threads of a typical server process. -/
def defaultSlots : Nat := 132

def zero (slots : Nat) : Counter :=
  ⟨List.replicate slots 0, 0⟩

/-- The share of the thread with this index, changed by `f`. -/
def update (c : Counter) (index : Option Nat) (f : UInt64 → UInt64) : Counter :=
  match index with
  | some i =>
      if i < c.slots.length then { c with slots := c.slots.modify i f }
      else { c with overflow := f c.overflow }
  | none => { c with overflow := f c.overflow }

def add (c : Counter) (index : Option Nat) (bytes : UInt64) : Counter :=
  c.update index (· + bytes)

/-- `bytes` less on the share of the thread with this index, below zero if need be. -/
def sub (c : Counter) (index : Option Nat) (bytes : UInt64) : Counter :=
  c.update index (· - bytes)

/-- The slots of the first `registered` threads and the overflow accumulator, summed. -/
def total (c : Counter) (registered : Nat) : UInt64 :=
  (c.slots.take registered).foldl (· + ·) c.overflow

/-! ## Texts -/

def record (c : Counter) (registered : Nat) : String :=
  "ShardedCounter \x7b slots: " ++ toString c.slots.length ++ ", total: " ++
    toString (c.total registered).toNat ++ " \x7d"

def recordLines (c : Counter) (registered : Nat) : String :=
  "ShardedCounter \x7b\n    slots: " ++ toString c.slots.length ++ ",\n    total: " ++
    toString (c.total registered).toNat ++ ",\n\x7d"

end Counter

end HeapLedger
