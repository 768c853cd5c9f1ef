/-!
# `HeapLedger/Fault.lean` — misuse that must not go on

A fault is not a failed request. It says that a caller broke a rule (freed a pointer that is not
live, wrote over a header), that a backend broke its promise, or that a sum left the word. The
operation stops where the fault is found; everything it did before stays done.

Pointers in a message are written by the function that is passed in, so that a reader who knows
where the memory starts can print offsets instead of raw addresses.
-/

set_option autoImplicit false

namespace HeapLedger

/-- Why an operation stopped in the middle. -/
inductive Fault where
  | addOverflow
  | mulOverflow
  /-- A backend answered a request for an alignment with a block `remainder` bytes off. -/
  | misaligned (remainder : Nat)
  /-- A block was freed with a usable size that is not its own. -/
  | wrongUsable (given actual : Nat)
  /-- The words in front of `ptr` were not written by the strategy that reads them. -/
  | corruptHeader (ptr size : Nat)
  | foreignPointer (ptr : Nat)
  | freeRefused (ptr : Nat)
  | nothingToFree (ptr : Nat)
  | nothingToQuery (ptr : Nat)
  deriving DecidableEq, Repr

def hexAddress (address : Nat) : String :=
  "0x" ++ String.ofList (Nat.toDigits 16 address)

/-- A failed check that two numbers are the same. -/
def unequalMessage (what : String) (left right : Nat) : String :=
  "assertion `left == right` failed" ++ what ++ "\n  left: " ++ toString left ++
    "\n right: " ++ toString right

/-- The sum of two words, or a fault when it leaves the word. -/
def Fault.guardSum (sum : Option Nat) : Except Fault Nat :=
  match sum with
  | some n => .ok n
  | none => .error .addOverflow

/-- What is said about a fault, with pointers written by `address`. -/
def Fault.message (address : Nat → String) : Fault → String
  | .addOverflow => "attempt to add with overflow"
  | .mulOverflow => "attempt to multiply with overflow"
  | .misaligned r => unequalMessage ": bug: backend returned a misaligned allocation" 0 r
  | .wrongUsable given actual =>
      unequalMessage ": bug: undefined behavior: free_with_size was passed the wrong usable size"
        given actual
  | .corruptHeader ptr size =>
      "bug: undefined behavior: " ++ address ptr ++ " claims " ++ toString size ++
        " usable bytes, more than could ever be allocated (double free, or heap corruption?)"
  | .foreignPointer ptr =>
      "bug: undefined behavior: " ++ address ptr ++ " wasn't allocated by this backend"
  | .freeRefused ptr =>
      "bug: undefined behavior: the backend refused to free " ++ address ptr ++
        " (foreign pointer, double free, or heap corruption)"
  | .nothingToFree ptr =>
      "bug: undefined behavior: " ++ address ptr ++
        " does not belong to `self` as the Null allocator can't allocate anything to free" ++
        " in the first place"
  | .nothingToQuery ptr =>
      "bug: undefined behavior: " ++ address ptr ++
        " does not belong to `self` as the Null allocator can't allocate anything to query" ++
        " in the first place"

end HeapLedger
