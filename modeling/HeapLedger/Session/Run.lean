import HeapLedger.Session.Step

/-!
# `HeapLedger/Session/Run.lean` — taking the steps of a session

The state of a session is a ledger and the pointers that have names. A step that is refused leaves
both alone. A fault, and a handler that unwinds, end their step and not the session. The default
handler ends the session, and then all that is left is what was logged.

`Table.settle` says which names a step makes and unmakes: a result gets the name it was promised,
and a name goes when the block behind it does. That also happens when a resize is refused for its
size, as the block is freed then.
-/

set_option autoImplicit false

namespace HeapLedger.Session

/-- What a handle stands for. -/
structure Entry where
  ptr : Nat
  size : Nat

/-- The pointers that have names. -/
structure Table where
  entries : List (Handle × Entry) := []

namespace Table

/-- What a handle stands for, if it is live. -/
def find? (t : Table) (handle : Handle) : Option Entry :=
  t.entries.lookup handle

/-- A handle is named that is not live. -/
def lacks (t : Table) (handle : Option Handle) : Bool :=
  handle.any fun h => (t.find? h).isNone

def erase (t : Table) (handle : Option Handle) : Table :=
  ⟨t.entries.filter fun e => some e.1 ≠ handle⟩

/-- With a pointer by a name, if there is a pointer and it is given one. -/
def insert (t : Table) (handle : Option Handle) (ptr : Option Nat) (size : Nat) : Table :=
  match handle, ptr with
  | some handle, some ptr => ⟨(handle, ⟨ptr, size⟩) :: t.entries⟩
  | _, _ => t

/-- The names after a step on `pointer` that came back with a reply. A new name remembers a
size. -/
def settle (t : Table) (pointer target : Option Handle) (task : Task) (size : Nat)
    (reply : Reply Nat) : Table :=
  match reply, task with
  | .pointer none, .layoutRealloc _ _ _ => t
  | .pointer ptr, .layoutRealloc _ _ _ => (t.erase pointer).insert target ptr size
  | .pointer ptr, _ | .sized ptr _, _ =>
      (if task.resizes then t.erase pointer else t).insert target ptr size
  | .block ptr _ _, _ => t.insert target (some ptr) size
  | .resized ptr _ _ _, _ => (t.erase pointer).insert target (some ptr) size
  | .failed e, _ => if task.resizes && e.isOverflow then t.erase pointer else t
  | _, _ => if task.frees then t.erase pointer else t

/-- The names after a step on `pointer` that ended in a handler. -/
def settleFailed (t : Table) (pointer : Option Handle) (task : Task) : Table :=
  if task.resizeTo?.any Size.tooLarge then t.erase pointer else t

end Table

/-- Which memory a session may touch, and how it shows pointers. -/
inductive Surroundings where
  /-- The addresses of an arena, shown as offsets. -/
  | arena
  /-- Whatever lies behind a pointer. Addresses mean nothing. -/
  | anywhere
  deriving DecidableEq, Repr

namespace Surroundings

/-- Whether `len` bytes at a distance from a pointer may be touched. -/
def reaches (ptr : Nat) (distance : Int) (len : Nat) : Surroundings → Bool
  | .arena => Arena.spans (ptr + distance) len
  | .anywhere => decide (0 ≤ distance)

/-- A pointer in an answer to a step that names an alignment, or relies on `maxAlign`. -/
def view (align maxAlign ptr : Nat) : Surroundings → PointerView
  | .arena => .offset (Arena.offset ptr)
  | .anywhere => .aligned (decide (ptr % (if align.isPowerOfTwo then align else maxAlign) = 0))

def address (ptr : Nat) : Surroundings → String
  | .arena =>
      if Arena.spans ptr 1 then "arena+" ++ toString (Arena.offset ptr)
      else if ptr = 0 then hexAddress 0
      else "<ptr>"
  | .anywhere => if ptr = 0 then hexAddress 0 else "<ptr>"

end Surroundings

/-- What stays the same in a session. -/
structure Setup (β : Type) where
  strategy : Strategy β
  host : Host
  surroundings : Surroundings
  /-- The calls that the backend has written down, newest first. -/
  calls : β → List Call

/-- What changes in a session. -/
structure State (β : Type) where
  ledger : Ledger β
  table : Table := {}
  nextThread : Nat := 1

/-- Session operations stop only when the process does, with the size that could not be had. -/
abbrev Op (β α : Type) : Type := EStateM Nat (State β) α

variable {β : Type}

/-! ## Memory -/

/-- A list of bytes as runs of equal ones. -/
def runsOf (bytes : List UInt8) : List (UInt8 × Nat) :=
  bytes.foldr extend []
where
  /-- One more byte in front. -/
  extend (b : UInt8) : List (UInt8 × Nat) → List (UInt8 × Nat)
    | (c, n) :: rest => if b = c then (c, n + 1) :: rest else (b, 1) :: (c, n) :: rest
    | [] => [(b, 1)]

/-- Where a touch starts, relative to the pointer, and how many bytes it is about. -/
def Touch.extent : Touch → Int × Nat
  | .fill offset len _ _ | .peek offset len | .runs offset len => (offset, len)
  | .poke n _ => (-((n * Word.bytes : Nat) : Int), Word.bytes)

/-- What a touch that starts at an address does to memory, and what it comes back with. -/
def Touch.apply (m : Memory) (start : Nat) : Touch → Memory × Outcome
  | .fill _ len byte 0 => (m.fill start len (UInt8.ofNat byte), .reply .done)
  | .fill _ len byte step =>
      (m.overwrite start len fun i => UInt8.ofNat (byte + step * i), .reply .done)
  | .peek _ len => (m, .bytes (m.slice start len))
  | .runs _ len => (m, .runs (runsOf (m.slice start len)))
  | .poke _ value => (m.setWord start value, .reply .done)

def touch (u : Setup β) (pointer : Option Handle) (t : Touch) : Op β Outcome := do
  match pointer.bind (← get).table.find? with
  | none => pure (.refused .noHandle)
  | some entry =>
      let (distance, len) := t.extent
      if u.surroundings.reaches entry.ptr distance len then
        let heap := (← get).ledger.heap
        let (memory, outcome) := t.apply heap.memory ((entry.ptr : Int) + distance).toNat
        modify fun st => { st with
          ledger := { st.ledger with heap := { heap with memory := memory } } }
        pure outcome
      else pure (.refused .outOfArena)

/-! ## Actions -/

/-- Makes the call of a task and sees to the names. -/
def perform (u : Setup β) (pointer target : Option Handle) (task : Task) (size : Nat)
    (action : Action) : Op β Outcome := do
  let st ← get
  match action.perform u.strategy u.host st.ledger with
  | .ok reply ledger =>
      set { st with ledger := ledger, table := st.table.settle pointer target task size reply }
      let view := fun ptr => u.surroundings.view task.align u.strategy.maxAlign ptr
      pure (.reply (reply.map view))
  | .error (.fault fault) ledger =>
      set { st with ledger := ledger }
      pure (.fault (fault.message fun ptr => u.surroundings.address ptr))
  | .error (.outOfMemory handler size) ledger =>
      set { st with ledger := ledger, table := st.table.settleFailed pointer task }
      if handler = .abort then throw size
      else pure (.outOfMemory handler size)

/-- The name for a result is taken by another pointer. -/
def busy (t : Table) (pointer target : Option Handle) : Bool :=
  match target with
  | some handle => target != pointer && (t.find? handle).isSome
  | none => false

def act (u : Setup β) (pointer target : Option Handle) (task : Task) (size : Nat) :
    Op β Outcome := do
  let table := (← get).table
  let entry := pointer.bind table.find?
  if table.lacks pointer then pure (.refused .noHandle)
  else
    match task.action (entry.map Entry.ptr) ((entry.map Entry.size).getD 0) with
    | .error why => pure (.refused why)
    | .ok action =>
        if busy table pointer target then pure (.refused .handleBusy)
        else perform u pointer target task size action

/-! ## Steps -/

/-- The answer to a step, with the calls and the log records that came with it. -/
def observed (u : Setup β) (op : Op β Outcome) : Op β Answer := do
  let before := (← get).ledger
  let outcome ← op
  let after := (← get).ledger
  let calls := u.calls after.heap.state
  let fresh := calls.take (calls.length - (u.calls before.heap.state).length)
  pure (.step outcome after.usedMemory fresh.reverse (after.log.drop before.log.length))

/-- Runs something on a thread of its own. -/
def onThread {α : Type} (op : Op β α) : Op β α := do
  let st ← get
  let caller := st.ledger.caller
  set { st with nextThread := st.nextThread + 1,
                ledger := { st.ledger with caller := st.nextThread } }
  let a ← op
  modify fun st => { st with ledger := { st.ledger with caller := caller } }
  pure a

mutual

def takeStep (u : Setup β) : Step → Op β Answer
  | .act pointer target task size => observed u (act u pointer target task size)
  | .touch pointer t => observed u (touch u pointer t)
  | .thread pointer steps => do
      if (← get).table.lacks pointer then observed u (pure (.refused .noHandle))
      else
        let answers ← onThread (takeSteps u steps)
        pure (.thread answers (← get).ledger.usedMemory)

def takeSteps (u : Setup β) : List Step → Op β (List Answer)
  | [] => pure []
  | step :: rest => do
      let answer ← takeStep u step
      let answers ← takeSteps u rest
      pure (answer :: answers)

end

inductive Ending where
  | finished (answers : List Answer) (log : List Event)
  | aborted (size : Nat) (log : List Event)

def run (u : Setup β) (start : State β) (steps : List Step) : Ending :=
  match takeSteps u steps start with
  | .ok answers st => .finished answers st.ledger.log
  | .error size st => .aborted size st.ledger.log

/-- What a process that runs the session writes on standard error: the log, and the last words of
the default handler. -/
def Ending.errorLines : Ending → List String
  | .finished _ log => log.map logLine
  | .aborted size log => log.map logLine ++ [OomPolicy.report size]
where
  logLine (e : Event) : String := "LOG " ++ e.line

end HeapLedger.Session
