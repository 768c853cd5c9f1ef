import HeapLedger.Event

/-!
# `HeapLedger/OomPolicy.lean` — what happens when memory cannot be had

A policy holds the handler that allocations which may not fail call instead of returning. Until
one is installed the default handler is in force: it logs, reports on standard error and aborts the
process. Any other handler is known by its name and unwinds to whoever asked.
-/

set_option autoImplicit false

namespace HeapLedger

/-- Whom to call with the size that could not be had. No handler comes back. -/
inductive OomHandler where
  /-- The default: log, report on standard error, abort the process. -/
  | abort
  /-- A handler of the program's own, which unwinds. -/
  | custom (name : String)
  deriving DecidableEq, Repr

namespace OomHandler

def label : OomHandler → String
  | .abort => "default"
  | .custom name => name

/-- What a handler logs before it is done. -/
def events (size : Nat) : OomHandler → List Event
  | .abort => [.outOfMemory size]
  | .custom _ => []

end OomHandler

structure OomPolicy where
  /-- The handler installed last, if one ever was. -/
  installed : Option OomHandler := none
  deriving DecidableEq, Repr

namespace OomPolicy

/-- The handler that the next failure calls. -/
def current (p : OomPolicy) : OomHandler :=
  p.installed.getD .abort

def install (_ : OomPolicy) (handler : OomHandler) : OomPolicy :=
  ⟨some handler⟩

/-- The policy as a record. An installed handler is known by an address of no meaning. -/
def record (p : OomPolicy) : String :=
  "OomPolicy \x7b handler: " ++ (if p.installed.isSome then "<ptr>" else "0x0") ++ " \x7d"

/-- The last words of the default handler on standard error. -/
def report (size : Nat) : String :=
  "tallyalloc: Out of memory trying to allocate " ++ toString size ++ " bytes"

end OomPolicy

end HeapLedger
