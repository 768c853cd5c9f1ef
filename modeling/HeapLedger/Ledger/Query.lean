import HeapLedger.Host
import HeapLedger.Ledger

/-!
# `HeapLedger/Ledger/Query.lean` — sizes, statistics and maintenance

None of these change the count of live bytes.
-/

set_option autoImplicit false

namespace HeapLedger.Ledger

variable {β : Type} (s : Strategy β)

/-- The bytes that may be used at a live pointer: at least what was asked for. -/
def usableSize (ptr : Nat) : LedgerOp β Nat :=
  onHeap (HeapOp.query (s.usableSize ptr))

/-- The bytes that `usedMemory` counts for a live pointer. -/
def allocationSize (ptr : Nat) : LedgerOp β Nat :=
  onHeap (HeapOp.query (s.footprint ptr))

/-- Lets the host take back the whole pages of a block, whose content its owner no longer needs,
and says how many bytes that was. A nonzero `hint` of less than two pages spares looking the size
up: such a block need not hold a page. -/
def adviseUnused (host : Host) (ptr : Option Nat) (hint : Nat) : LedgerOp β Nat :=
  match ptr with
  | none => pure 0
  | some ptr =>
      if host.pageSize = 0 ∨ (hint ≠ 0 ∧ hint / 2 < host.pageSize) then pure 0
      else do
        let usable ← usableSize s ptr
        if usable < host.pageSize then pure 0
        else
          let (bytes, memory, events) := host.releasePages ptr usable (← get).heap.memory
          modify fun l => { l with heap := { l.heap with memory := memory } }
          emit events
          pure bytes

def info : LedgerOp β AllocatorInfo := do
  pure (s.info (← get).heap.state)

def setBackgroundThread (enable : Bool) : LedgerOp β Unit :=
  onHeap (s.setBackgroundThread enable)

def purge : LedgerOp β PurgeOutcome := do
  let outcome ← onHeap s.purge
  emit [.purged outcome]
  pure outcome

def record (l : Ledger β) : String :=
  "Accountant \x7b strategy: " ++ s.label ++ ", used_memory: " ++
    toString l.usedMemory.toNat ++ ", oom: " ++ l.policy.record ++ " \x7d"

end HeapLedger.Ledger
