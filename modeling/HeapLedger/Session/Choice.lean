import HeapLedger.Backend.System
import HeapLedger.Conformance
import HeapLedger.Session.Run
import HeapLedger.Strategy.Headered

/-!
# `HeapLedger/Session/Choice.lean` — what a session or a check is run over

A choice names a backend, how it is wrapped and what strategy is built over it. From that a session
gets its ledger, and a check its backend.
-/

set_option autoImplicit false

namespace HeapLedger.Session

/-- A backend to choose. -/
inductive BackendChoice where
  | basic (config : Arena.Config)
  | full (config : Arena.Config)
  | empty
  | system

inductive Wrapping where
  | bare
  | borrowed
  | capped (max : Nat)
  deriving DecidableEq, Repr

def Wrapping.wrap {β : Type} (b : Backend β) : Wrapping → Backend β
  | .bare => b
  | .borrowed => b.borrowed
  | .capped max => b.capped max

def Wrapping.wrapSized {β : Type} (b : SizedBackend β) : Wrapping → SizedBackend β
  | .bare => b
  | .borrowed => b.borrowed
  | .capped max => b.capped max

inductive Sizing where
  | native
  | headered
  deriving DecidableEq, Repr

def Sizing.strategy {β : Type} (b : SizedBackend β) : Sizing → Strategy β
  | .native => Strategy.native b
  | .headered => Strategy.headered b.toBackend

/-- All that there is to choose about a session. -/
structure Choice where
  backend : BackendChoice
  wrapping : Wrapping := .bare
  /-- Where sizes come from. Over the system's allocator, always from headers. -/
  sizing : Sizing := .headered
  slots : Nat := Counter.defaultSlots
  policy : OomPolicy := {}

namespace Choice

/-- The machine under a session: an ordinary one that takes all pages back. -/
def host : Host :=
  Machine.small.host

def runOver {β : Type} (c : Choice) (strategy : Strategy β) (surroundings : Surroundings)
    (calls : β → List Call) (heap : Heap β) (steps : List Step) : Ending :=
  let ledger := { Ledger.new heap c.slots with policy := c.policy }
  Session.run ⟨strategy, host, surroundings, calls⟩ { ledger := ledger } steps

def runArena (c : Choice) (config : Arena.Config) (b : SizedBackend Arena)
    (steps : List Step) : Ending :=
  c.runOver (c.sizing.strategy (c.wrapping.wrapSized b)) .arena Arena.calls
    ⟨Arena.freshMemory, Arena.new config⟩ steps

/-- Runs a session over what was chosen. -/
def run (c : Choice) (steps : List Step) : Ending :=
  match c.backend with
  | .basic config => c.runArena config (Arena.basic config) steps
  | .full config => c.runArena config (Arena.full config) steps
  | .empty =>
      c.runOver (c.sizing.strategy (c.wrapping.wrapSized SizedBackend.empty)) .arena (fun _ => [])
        ⟨Arena.freshMemory, ()⟩ steps
  | .system =>
      c.runOver (Strategy.headered (c.wrapping.wrap Backend.system)) .anywhere (fun _ => [])
        ⟨Memory.filled 0, {}⟩ steps

end Choice

/-! ## Checks -/

inductive CheckChoice where
  | alignment
  | edgeCaseSizes
  | zeroedAlloc
  | reallocPreserves
  | sizeOverAlloc
  deriving DecidableEq, Repr

/-- The check of a backend, if it can be done without knowing sizes. -/
def CheckChoice.plain {β : Type} (b : Backend β) : CheckChoice → Option (Check β Unit)
  | .alignment => some (Conformance.alignment b)
  | .edgeCaseSizes => some (Conformance.edgeCaseSizes b)
  | .zeroedAlloc => some (Conformance.zeroedAlloc b)
  | .reallocPreserves => some (Conformance.reallocPreserves b)
  | .sizeOverAlloc => none

/-- The check of a backend that knows its sizes. -/
def CheckChoice.sized {β : Type} (b : SizedBackend β) (c : CheckChoice) : Check β Unit :=
  (c.plain b.toBackend).getD (Conformance.sizeOverAlloc b)

/-- What a check found, in words, if anything, and the calls it made of an arena. -/
structure Finding where
  violation : Option String
  calls : Option (List Call)

def CheckChoice.runOver {β : Type} (check : Check β Unit) (surroundings : Surroundings)
    (calls : β → Option (List Call)) (heap : Heap β) : Finding :=
  match check heap with
  | .ok _ h => ⟨none, (calls h.state).map List.reverse⟩
  | .error v h =>
      ⟨some (v.message fun ptr => surroundings.address ptr), (calls h.state).map List.reverse⟩

/-- Runs a check of what was chosen. There is no asking the system's allocator for sizes. -/
def CheckChoice.run (check : CheckChoice) (backend : BackendChoice) (wrapping : Wrapping) :
    Option Finding :=
  let arena := fun (config : Arena.Config) (b : SizedBackend Arena) =>
    runOver (check.sized (wrapping.wrapSized b)) .arena (fun a => some a.calls)
      ⟨Arena.freshMemory, Arena.new config⟩
  match backend with
  | .basic config => some (arena config (Arena.basic config))
  | .full config => some (arena config (Arena.full config))
  | .empty =>
      some (runOver (check.sized (wrapping.wrapSized SizedBackend.empty)) .arena (fun _ => none)
        ⟨Arena.freshMemory, ()⟩)
  | .system =>
      (check.plain (wrapping.wrap Backend.system)).map fun c =>
        runOver c .anywhere (fun _ => none) ⟨Memory.filled 0, {}⟩

end HeapLedger.Session
