import HeapLedger.Counter

/-!
# `HeapLedger/Counter/Run.lean` — threads taking turns on a counter

A run is a list of steps that one thread takes. A step may start another thread, which takes steps
of its own to the end before the first one goes on. After every step the total is read.
-/

set_option autoImplicit false

namespace HeapLedger.Counter

inductive Step where
  | add (bytes : UInt64)
  | sub (bytes : UInt64)
  | record
  | slots
  /-- Steps of a new thread, to the end. -/
  | thread (steps : List Step)

/-- What a step came back with; the last field is the total after it. -/
inductive Answer where
  | changed (total : UInt64)
  | record (line lines : String) (total : UInt64)
  | slots (count : Nat) (total : UInt64)
  | thread (answers : List Answer) (total : UInt64)

/-- A counter and the threads that use it. -/
structure Run where
  counter : Counter
  threads : Registry := {}
  caller : Nat := 0
  nextThread : Nat := 1

namespace Run

def total (r : Run) : UInt64 :=
  r.counter.total r.threads.size

/-- The running thread's share, changed by `change`, which is told the thread's index. -/
def update (r : Run) (change : Counter → Option Nat → Counter) : Run :=
  let threads := r.threads.claim r.caller
  { r with threads := threads, counter := change r.counter (threads.index? r.caller) }

def apply (change : Counter → Option Nat → Counter) : StateM Run Answer := do
  modify fun r => r.update change
  pure (.changed (← get).total)

mutual

def takeStep : Step → StateM Run Answer
  | .add bytes => apply fun c index => c.add index bytes
  | .sub bytes => apply fun c index => c.sub index bytes
  | .record => do
      let r ← get
      let registered := r.threads.size
      pure (.record (r.counter.record registered) (r.counter.recordLines registered) r.total)
  | .slots => do
      let r ← get
      pure (.slots r.counter.slots.length r.total)
  | .thread steps => do
      let caller := (← get).caller
      modify fun r => { r with caller := r.nextThread, nextThread := r.nextThread + 1 }
      let answers ← takeSteps steps
      modify fun r => { r with caller := caller }
      pure (.thread answers (← get).total)

def takeSteps : List Step → StateM Run (List Answer)
  | [] => pure []
  | step :: rest => do
      let answer ← takeStep step
      let answers ← takeSteps rest
      pure (answer :: answers)

end

end Run

/-- Takes all steps on a counter with nothing in it. -/
def run (slots : Nat) (steps : List Step) : List Answer :=
  (Run.takeSteps steps { counter := .zero slots }).1

end HeapLedger.Counter
