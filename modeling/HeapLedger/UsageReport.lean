import HeapLedger.Backend.System
import HeapLedger.Ledger.Alloc
import HeapLedger.Ledger.Layouts
import HeapLedger.Ledger.Query
import HeapLedger.Strategy.Headered
import HeapLedger.Text.Column

/-!
# `HeapLedger/UsageReport.lean` — what a program's own heap costs

A program that runs on a ledger of its own allocates and frees in a few stages, and writes down at
each of them what the ledger, the backend and the host think is in use. Its strategy is headers
over the allocator of the C library.

To see it fail, the allocator can be given a `Shortage`: from some line of the report on it has no
memory for requests of one particular size.
-/

set_option autoImplicit false

namespace HeapLedger

/-- The same backend, except that it has no memory for plain requests of exactly `size` bytes. -/
def Backend.without {β : Type} (b : Backend β) (size : Nat) : Backend β :=
  let alloc := fun n => if n = size then pure none else b.alloc n
  { b with alloc := alloc, allocZeroed := HeapOp.zeroed alloc }

namespace UsageReport

inductive Line where
  | text (content : String)
  | physical (bytes : Nat)
  | figure (name : String) (bytes : Nat)
  deriving DecidableEq, Repr

def nameColumns : Nat := 16

/-- Columns that figures have, of which they use the last. -/
def figureColumns : Nat := 12

def Line.render : Line → String
  | .text content => content
  | .physical bytes => "physical memory: " ++ toString bytes ++ " bytes"
  | .figure name bytes =>
      "    " ++ Text.flushLeft nameColumns name ++ Text.flushRight figureColumns (toString bytes)

/-- When the allocator is short of memory. -/
structure Shortage where
  /-- The requests that fail. -/
  size : Nat
  /-- Lines printed before they do. -/
  after : Nat
  deriving DecidableEq, Repr

structure Progress where
  ledger : Ledger System
  lines : List Line := []

/-- A part of the program. It stops when it cannot have memory. -/
abbrev Op (α : Type) : Type := EStateM Halt Progress α

def onLedger {α : Type} (op : LedgerOp System α) : Op α := fun p =>
  match op p.ledger with
  | .ok a ledger => .ok a { p with ledger := ledger }
  | .error halt ledger => .error halt { p with ledger := ledger }

def say (lines : List Line) : Op Unit :=
  modify fun p => { p with lines := p.lines ++ lines }

/-- The strategy when `printed` lines have been printed. -/
def strategyAfter (shortage : Option Shortage) (printed : Nat) : Strategy System :=
  match shortage with
  | none => Strategy.headered Backend.system
  | some s =>
      if printed < s.after then Strategy.headered Backend.system
      else Strategy.headered (Backend.system.without s.size)

def strategy (shortage : Option Shortage) : Op (Strategy System) := do
  pure (strategyAfter shortage (← get).lines.length)

/-- What the host says, with its log records passed on. -/
def ask (answer : Except Fault (Nat × List Event)) : Op Nat :=
  match answer with
  | .ok (bytes, events) => do
      onLedger (Ledger.emit events)
      pure bytes
  | .error fault => throw (.fault fault)

/-! ## Memory of the program's own

All that the program holds comes out of the ledger: what it reports on, and also what printing and
reading take. A layout that cannot be had ends the program, for none of it can be done without.
-/

def reserve (shortage : Option Shortage) (align size : Nat) : Op Nat := do
  match Layout.of? size align with
  | none => throw (.outOfMemory .abort size)
  | some layout =>
      match ← onLedger (Ledger.layoutAlloc (← strategy shortage) layout) with
      | none => throw (.outOfMemory .abort size)
      | some ptr => pure ptr

def release (shortage : Option Shortage) (ptr : Nat) : Op Unit := do
  onLedger (Ledger.free (← strategy shortage) (some ptr))

/-- Does something with buffers of these sizes at hand. -/
def withBuffers {α : Type} (shortage : Option Shortage) (sizes : List Nat) (act : Op α) :
    Op α := do
  let buffers ← sizes.mapM (reserve shortage 1)
  let a ← act
  buffers.forM (release shortage)
  pure a

/-- Bytes of the buffer that a printed line is put together in. It is there from the first line to
the end. -/
def outputBytes : Nat := 1024

/-- The buffers for reading this process's status: as many bytes as tell whether there are any. -/
def statusBuffers : List Nat := [32]

/-- The width that a field of a mapping has with its blanks and colon. -/
def fieldColumns : Nat := 16

/-- The width that a number of kilobytes has in a mapping. -/
def kilobyteColumns : Nat := 8

/-- The buffers for reading this process's mappings: the name of the file, what is read of it at a
time, and a line that gives a field in kilobytes. -/
def mappingBuffers : List Nat :=
  [(Event.smapsPath none).utf8ByteSize, 8 * 1024,
    fieldColumns + kilobyteColumns + " kB\n".utf8ByteSize]

/-! ## Its report -/

def stage (shortage : Option Shortage) (host : Host) (title : String) : Op Unit := do
  let info ← onLedger (Ledger.info (← strategy shortage))
  let used := (← get).ledger.usedMemory
  say [.text (title ++ ":"), .figure "used_memory" used.toNat, .figure "allocated" info.allocated,
    .figure "active" info.active, .figure "resident" info.resident,
    .figure "retained" info.retained, .figure "muzzy" info.muzzy]
  let resident ← withBuffers shortage statusBuffers (ask (.ok host.residentBytes))
  say [.figure "rss" resident]
  let dirty ← withBuffers shortage mappingBuffers (ask (host.privateDirtyBytes none))
  say [.figure "private dirty" dirty, .text ""]

/-! ## The program -/

def blockCount : Nat := 64

def blockBytes : Nat := 128 * 1024

/-- Bytes in a record of where a block is, how big it is and how much of it is in use. -/
def entryBytes : Nat := 3 * Word.bytes

def greeting : List UInt8 :=
  "hello from tallyalloc".toUTF8.toList

def giveUp : OomHandler :=
  .custom "used-memory"

/-- Copies the greeting, says how many bytes the copy may use, and frees it. -/
def copyGreeting (shortage : Option Shortage) : Op Unit := do
  let copy ← onLedger (Ledger.dupString (← strategy shortage) greeting)
  let usable ← onLedger (Ledger.usableSize (← strategy shortage) copy)
  say [.text ("dup_cstr: " ++ toString usable ++ " usable bytes")]
  release shortage copy

def program (shortage : Option Shortage) (host : Host) : Op Unit := do
  onLedger (Ledger.setHandler giveUp)
  let _ ← reserve shortage 1 outputBytes
  say [.physical host.physicalBytes, .text ""]
  stage shortage host "startup"
  let table ← reserve shortage Word.bytes (blockCount * entryBytes)
  let blocks ← (List.replicate blockCount blockBytes).mapM (reserve shortage Word.bytes)
  stage shortage host "64 x 128 KiB"
  copyGreeting shortage
  blocks.forM (release shortage)
  release shortage table
  stage shortage host "dropped"
  onLedger (Ledger.setBackgroundThread (← strategy shortage) true)
  let outcome ← onLedger (Ledger.purge (← strategy shortage))
  say [.text ("purge: " ++ outcome.label)]
  stage shortage host "purged"

/-! ## As a process -/

structure Finish where
  /-- Its status, unless it was aborted. -/
  status : Option Nat
  output : List Line
  errors : List String
  deriving DecidableEq, Repr

def levelColumns : Nat := 5

def logLine (e : Event) : String :=
  "[" ++ Text.flushLeft levelColumns e.level.label ++ " " ++ e.origin ++ "] " ++ e.message

/-- The last words of a program that had to stop. One that is aborted also says how to learn where
it was. -/
def lastWords : Halt → List String
  | .fault fault => [fault.message hexAddress]
  | .outOfMemory .abort size =>
      ["memory allocation of " ++ toString size ++ " bytes failed",
        "note: run with `RUST_BACKTRACE=1` environment variable to display a backtrace"]
  | .outOfMemory (.custom name) size =>
      [name ++ ": couldn't allocate " ++ toString size ++ " bytes, giving up"]

def stopStatus : Halt → Option Nat
  | .fault _ => some 101
  | .outOfMemory .abort _ => none
  | .outOfMemory (.custom _) _ => some 1

def run (shortage : Option Shortage) (host : Host) : Finish :=
  let start : Progress := { ledger := Ledger.new ⟨Memory.filled 0, {}⟩ Counter.defaultSlots }
  match program shortage host start with
  | .ok () p => ⟨some 0, p.lines, p.ledger.log.map logLine⟩
  | .error halt p => ⟨stopStatus halt, p.lines, p.ledger.log.map logLine ++ lastWords halt⟩

end UsageReport

end HeapLedger
