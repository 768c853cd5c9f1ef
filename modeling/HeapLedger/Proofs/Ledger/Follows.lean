import HeapLedger.Ledger.Action
import HeapLedger.Proofs.Follows

/-!
# `HeapLedger/Proofs/Ledger/Follows.lean` — ledgers over a watched backend

A ledger only sees its backend through a strategy. So if one strategy imitates another, every
operation of a ledger with the one follows the same operation with the other, and so does every call
(`Action.follows_perform`): replies, halts, the count, the log and the memory are the same.
-/

set_option autoImplicit false

namespace HeapLedger

variable {β α : Type}

/-- The ledger without the requests that its backend has written down. -/
def Ledger.unwatched (l : Ledger (Watched β)) : Ledger β where
  heap := l.heap.unwatched
  counter := l.counter
  threads := l.threads
  caller := l.caller
  policy := l.policy
  log := l.log

namespace Ledger

theorem follows_onHeap {op' : HeapOp (Watched β) α} {op : HeapOp β α}
    (h : Follows Heap.unwatched op' op) : Follows unwatched (onHeap op') (onHeap op) := by
  unfold Follows at *
  intro l
  have hl := h l.heap
  unfold onHeap
  cases hop : op' l.heap with
  | ok a heap =>
    rw [hop] at hl
    have hrun : op l.unwatched.heap = .ok a heap.unwatched := hl
    simp only [hrun]
    rfl
  | error e heap =>
    rw [hop] at hl
    have hrun : op l.unwatched.heap = .error e heap.unwatched := hl
    simp only [hrun]
    rfl

theorem follows_emit (events : List Event) :
    Follows unwatched (emit events : LedgerOp (Watched β) Unit) (emit events) :=
  .modify fun _ => rfl

theorem follows_charge (bytes : Nat) :
    Follows unwatched (charge bytes : LedgerOp (Watched β) Unit) (charge bytes) :=
  .modify fun _ => rfl

theorem follows_credit (bytes : Nat) :
    Follows unwatched (credit bytes : LedgerOp (Watched β) Unit) (credit bytes) :=
  .modify fun _ => rfl

theorem follows_handler : Follows unwatched (handler : LedgerOp (Watched β) OomHandler) handler :=
  .get fun _ => .pure _

theorem follows_setHandler (h : OomHandler) :
    Follows unwatched (setHandler h : LedgerOp (Watched β) Unit) (setHandler h) :=
  (follows_emit _).bind fun _ => .modify fun _ => rfl

theorem follows_fail (size : Nat) :
    Follows unwatched (fail size : LedgerOp (Watched β) α) (fail size) :=
  follows_handler.bind fun _ => (follows_emit _).bind fun _ => .throw _

theorem follows_orFail {op' : LedgerOp (Watched β) (Except AllocError α)}
    {op : LedgerOp β (Except AllocError α)} (h : Follows unwatched op' op) :
    Follows unwatched (orFail op') (orFail op) :=
  h.bind fun r => by
    cases r with
    | ok a => exact .pure a
    | error e => exact follows_fail _

variable {s' : Strategy (Watched β)} {s : Strategy β} (hs : s'.Imitates s)

section Allocating

theorem follows_settle (size : Nat) (block : Option Block) :
    Follows unwatched (settle size block : LedgerOp (Watched β) (Except AllocError (Nat × Nat)))
      (settle size block) := by
  cases block with
  | none => exact .pure _
  | some block => exact (follows_charge _).bind fun _ => .pure _

theorem follows_tryTake {take' : Nat → HeapOp (Watched β) (Option Block)}
    {take : Nat → HeapOp β (Option Block)} (h : ∀ n, Follows Heap.unwatched (take' n) (take n))
    (size : Nat) : Follows unwatched (tryTake take' size) (tryTake take size) := by
  unfold tryTake
  cases Size.request size with
  | error e => exact .pure _
  | ok request => exact (follows_onHeap (h request)).bind fun block => follows_settle size block

include hs

theorem follows_tryAllocUsable (size : Nat) :
    Follows unwatched (tryAllocUsable s' size) (tryAllocUsable s size) :=
  follows_tryTake hs.alloc size

theorem follows_tryAlloc (size : Nat) :
    Follows unwatched (tryAlloc s' size) (tryAlloc s size) :=
  (follows_tryAllocUsable hs size).map _

theorem follows_tryAllocZeroedUsable (size : Nat) :
    Follows unwatched (tryAllocZeroedUsable s' size) (tryAllocZeroedUsable s size) :=
  follows_tryTake hs.allocZeroed size

theorem follows_tryAllocZeroed (size : Nat) :
    Follows unwatched (tryAllocZeroed s' size) (tryAllocZeroed s size) :=
  (follows_tryAllocZeroedUsable hs size).map _

theorem follows_tryAllocZeroedArray (count elem : Nat) :
    Follows unwatched (tryAllocZeroedArray s' count elem) (tryAllocZeroedArray s count elem) := by
  unfold tryAllocZeroedArray
  cases Size.ofArray count elem with
  | error e => exact .pure _
  | ok size => exact follows_tryAllocZeroed hs size

theorem follows_tryAllocAligned (size align : Nat) :
    Follows unwatched (tryAllocAligned s' size align) (tryAllocAligned s size align) := by
  unfold tryAllocAligned
  cases Layout.of? size align with
  | none => exact .pure _
  | some layout =>
    simp only [hs.maxAlign]
    cases layout.plainSize s.maxAlign with
    | some plain => exact (follows_tryAlloc hs plain).map _
    | none => exact (follows_tryTake (fun n => hs.allocAligned n align) size).map _

theorem follows_allocUsable (size : Nat) :
    Follows unwatched (allocUsable s' size) (allocUsable s size) :=
  follows_orFail (follows_tryAllocUsable hs size)

theorem follows_alloc (size : Nat) : Follows unwatched (alloc s' size) (alloc s size) :=
  (follows_allocUsable hs size).map _

theorem follows_allocZeroedUsable (size : Nat) :
    Follows unwatched (allocZeroedUsable s' size) (allocZeroedUsable s size) :=
  follows_orFail (follows_tryAllocZeroedUsable hs size)

theorem follows_dupString (text : List UInt8) :
    Follows unwatched (dupString s' text) (dupString s text) :=
  (follows_alloc hs _).bind fun _ => (follows_onHeap (follows_mapMemory _)).bind fun _ => .pure _

end Allocating

section Resizing

include hs

theorem follows_free (ptr : Option Nat) : Follows unwatched (free s' ptr) (free s ptr) := by
  cases ptr with
  | none => exact .pure ()
  | some p => exact (follows_onHeap (hs.free p)).bind fun cost => follows_credit cost

theorem follows_freeWithSize (ptr : Option Nat) (usable : Nat) :
    Follows unwatched (freeWithSize s' ptr usable) (freeWithSize s ptr usable) := by
  cases ptr with
  | none => exact .pure ()
  | some p =>
    exact (follows_onHeap (hs.freeWithSize p usable)).bind fun cost => follows_credit cost

theorem follows_tryReallocUsable (ptr : Option Nat) (size : Nat) :
    Follows unwatched (tryReallocUsable s' ptr size) (tryReallocUsable s ptr size) := by
  cases ptr with
  | none => exact (follows_tryAllocUsable hs size).map _
  | some p =>
    unfold tryReallocUsable
    simp only
    split
    · exact (follows_free hs _).bind fun _ => .pure _
    cases Size.request size with
    | error e => exact (follows_free hs _).bind fun _ => .pure _
    | ok request =>
      refine (follows_onHeap (hs.realloc p request)).bind fun r => ?_
      cases r with
      | none => exact .pure _
      | some resized =>
        exact (follows_credit _).bind fun _ => (follows_charge _).bind fun _ => .pure _

theorem follows_tryRealloc (ptr : Option Nat) (size : Nat) :
    Follows unwatched (tryRealloc s' ptr size) (tryRealloc s ptr size) :=
  (follows_tryReallocUsable hs ptr size).map _

theorem follows_reallocUsable (ptr : Option Nat) (size : Nat) :
    Follows unwatched (reallocUsable s' ptr size) (reallocUsable s ptr size) := by
  refine (follows_tryReallocUsable hs ptr size).bind fun r => ?_
  cases r with
  | ok r => exact .pure r
  | error e =>
    simp only
    split
    · exact .pure _
    · exact follows_fail _

end Resizing

section ByLayout

theorem follows_pointer? {op' : LedgerOp (Watched β) (Except AllocError Nat)}
    {op : LedgerOp β (Except AllocError Nat)} (h : Follows unwatched op' op) :
    Follows unwatched (pointer? op') (pointer? op) :=
  h.bind fun r => by
    cases r with
    | ok ptr => exact .pure _
    | error e => exact .pure _

include hs

theorem follows_layoutAlloc (layout : Layout) :
    Follows unwatched (layoutAlloc s' layout) (layoutAlloc s layout) :=
  follows_pointer? (follows_tryAllocAligned hs _ _)

theorem follows_layoutAllocZeroed (layout : Layout) :
    Follows unwatched (layoutAllocZeroed s' layout) (layoutAllocZeroed s layout) := by
  unfold layoutAllocZeroed
  rw [hs.maxAlign]
  cases layout.plainSize s.maxAlign with
  | some size => exact follows_pointer? (follows_tryAllocZeroed hs size)
  | none =>
    refine (follows_layoutAlloc hs layout).bind fun r => ?_
    cases r with
    | none => exact .pure _
    | some ptr => exact (follows_onHeap (follows_mapMemory _)).bind fun _ => .pure _

theorem follows_layoutMove (ptr : Option Nat) (layout : Layout) (size : Nat) :
    Follows unwatched (layoutMove s' ptr layout size) (layoutMove s ptr layout size) := by
  refine (follows_pointer? (follows_tryAllocAligned hs _ _)).bind fun r => ?_
  cases r with
  | none => exact .pure _
  | some new =>
    exact (follows_onHeap (follows_mapMemory _)).bind fun _ =>
      (follows_free hs ptr).bind fun _ => .pure _

theorem follows_layoutRealloc (ptr : Option Nat) (layout : Layout) (size : Nat) :
    Follows unwatched (layoutRealloc s' ptr layout size) (layoutRealloc s ptr layout size) := by
  unfold layoutRealloc
  cases Layout.of? size layout.align with
  | none => exact .pure _
  | some new =>
    simp only [hs.maxAlign]
    cases new.plainSize s.maxAlign with
    | none => exact follows_layoutMove hs ptr layout size
    | some plain =>
      simp only
      split
      · exact .pure _
      · refine (follows_tryRealloc hs ptr plain).bind fun r => ?_
        cases r with
        | ok moved => exact .pure _
        | error e => exact .pure _

end ByLayout

section Asking

include hs

theorem follows_usableSize (ptr : Nat) :
    Follows unwatched (usableSize s' ptr) (usableSize s ptr) :=
  follows_onHeap (follows_query (hs.usableSize ptr))

theorem follows_allocationSize (ptr : Nat) :
    Follows unwatched (allocationSize s' ptr) (allocationSize s ptr) :=
  follows_onHeap (follows_query (hs.footprint ptr))

theorem follows_adviseUnused (host : Host) (ptr : Option Nat) (hint : Nat) :
    Follows unwatched (adviseUnused s' host ptr hint) (adviseUnused s host ptr hint) := by
  cases ptr with
  | none => exact .pure 0
  | some p =>
    unfold adviseUnused
    simp only
    split
    · exact .pure 0
    refine (follows_usableSize hs p).bind fun usable => ?_
    split
    · exact .pure 0
    · refine .get fun l => .bind (.modify fun _ => rfl) fun _ => ?_
      exact (follows_emit _).bind fun _ => .pure _

theorem follows_info : Follows unwatched (info s') (info s) :=
  .get fun l => by
    rw [hs.info]
    exact .pure _

theorem follows_purge : Follows unwatched (purge s') (purge s) :=
  (follows_onHeap hs.purge).bind fun _ => (follows_emit _).bind fun _ => .pure _

theorem record_eq (l : Ledger (Watched β)) : record s' l = record s l.unwatched := by
  unfold record
  rw [hs.label]
  rfl

end Asking

end Ledger

namespace Action

theorem follows_reported {op' : LedgerOp (Watched β) (Except AllocError α)}
    {op : LedgerOp β (Except AllocError α)} (reply : α → Reply Nat)
    (h : Follows Ledger.unwatched op' op) :
    Follows Ledger.unwatched (reported reply op') (reported reply op) :=
  h.bind fun r => by
    cases r with
    | ok a => exact .pure _
    | error e => exact .pure _

open Ledger in
theorem follows_perform {s' : Strategy (Watched β)} {s : Strategy β} (hs : s'.Imitates s)
    (host : Host) (a : Action) :
    Follows Ledger.unwatched (a.perform s' host) (a.perform s host) := by
  cases a with
  | alloc mode size =>
    cases mode with
    | attempt => exact follows_reported _ (follows_tryAlloc hs size)
    | orFail => exact (follows_alloc hs size).map _
  | allocUsable mode size =>
    cases mode with
    | attempt => exact follows_reported _ (follows_tryAllocUsable hs size)
    | orFail => exact (follows_allocUsable hs size).map _
  | allocZeroed mode size =>
    cases mode with
    | attempt => exact follows_reported _ (follows_tryAllocZeroed hs size)
    | orFail => exact ((follows_allocZeroedUsable hs size).map _).map _
  | allocZeroedUsable mode size =>
    cases mode with
    | attempt => exact follows_reported _ (follows_tryAllocZeroedUsable hs size)
    | orFail => exact (follows_allocZeroedUsable hs size).map _
  | allocZeroedArray mode count elem =>
    cases mode with
    | attempt => exact follows_reported _ (follows_tryAllocZeroedArray hs count elem)
    | orFail => exact (follows_orFail (follows_tryAllocZeroedArray hs count elem)).map _
  | allocAligned mode size align =>
    cases mode with
    | attempt => exact follows_reported _ (follows_tryAllocAligned hs size align)
    | orFail => exact (follows_orFail (follows_tryAllocAligned hs size align)).map _
  | realloc mode ptr size =>
    cases mode with
    | attempt => exact follows_reported _ (follows_tryRealloc hs ptr size)
    | orFail => exact ((follows_reallocUsable hs ptr size).map _).map _
  | reallocUsable mode ptr size =>
    cases mode with
    | attempt => exact follows_reported _ (follows_tryReallocUsable hs ptr size)
    | orFail => exact (follows_reallocUsable hs ptr size).map _
  | dupString text => exact (follows_dupString hs text).map _
  | free ptr => exact (follows_free hs ptr).map _
  | freeWithSize ptr usable => exact (follows_freeWithSize hs ptr usable).map _
  | usableSize ptr => exact (follows_usableSize hs ptr).map _
  | allocationSize ptr => exact (follows_allocationSize hs ptr).map _
  | adviseUnused ptr hint => exact (follows_adviseUnused hs host ptr hint).map _
  | info => exact (follows_info hs).map _
  | setBackgroundThread enable =>
    exact (follows_onHeap (hs.setBackgroundThread enable)).map _
  | purge => exact (follows_purge hs).map _
  | record =>
    refine .get fun l => ?_
    rw [record_eq hs]
    exact .pure _
  | setHandler h => exact (follows_setHandler h).map _
  | handler => exact follows_handler.map _
  | layoutAlloc layout => exact (follows_layoutAlloc hs layout).map _
  | layoutAllocZeroed layout => exact (follows_layoutAllocZeroed hs layout).map _
  | layoutRealloc ptr layout size => exact (follows_layoutRealloc hs ptr layout size).map _
  | layoutFree ptr layout => exact (follows_free hs ptr).map _
  | blockAlloc size => exact (follows_onHeap (hs.alloc size)).map _
  | blockAllocZeroed size => exact (follows_onHeap (hs.allocZeroed size)).map _
  | blockAllocAligned size align => exact (follows_onHeap (hs.allocAligned size align)).map _
  | blockRealloc ptr size => exact (follows_onHeap (hs.realloc ptr size)).map _
  | blockFree ptr => exact (follows_onHeap (hs.free ptr)).map _
  | blockFreeWithSize ptr usable => exact (follows_onHeap (hs.freeWithSize ptr usable)).map _
  | blockUsableSize ptr => exact (follows_usableSize hs ptr).map _
  | blockFootprint ptr => exact (follows_allocationSize hs ptr).map _

end Action

end HeapLedger
