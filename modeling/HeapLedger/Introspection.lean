/-!
# `HeapLedger/Introspection.lean` — what a backend says about itself

Statistics and maintenance are optional. A backend that keeps no statistics reports zeros, and one
that has nothing to purge says that purging does not apply to it.
-/

set_option autoImplicit false

namespace HeapLedger

/-- Statistics over a whole backend, in bytes. -/
structure AllocatorInfo where
  /-- In live allocations, as the backend sees them. -/
  allocated : Nat := 0
  /-- In pages with live allocations. -/
  active : Nat := 0
  /-- In physical memory. -/
  resident : Nat := 0
  /-- Still mapped but returned to the host. -/
  retained : Nat := 0
  /-- Returned lazily, and resident until the host takes them. -/
  muzzy : Nat := 0
  deriving DecidableEq, Repr

def AllocatorInfo.record (i : AllocatorInfo) : String :=
  "AllocatorInfo \x7b allocated: " ++ toString i.allocated ++ ", active: " ++ toString i.active ++
    ", resident: " ++ toString i.resident ++ ", retained: " ++ toString i.retained ++
    ", muzzy: " ++ toString i.muzzy ++ " \x7d"

/-- What came of asking a backend to return its unused pages. -/
inductive PurgeOutcome where
  | success
  | notApplicable
  | failed
  deriving DecidableEq, Repr

def PurgeOutcome.label : PurgeOutcome → String
  | .success => "Success"
  | .notApplicable => "NotApplicable"
  | .failed => "Failed"

end HeapLedger
