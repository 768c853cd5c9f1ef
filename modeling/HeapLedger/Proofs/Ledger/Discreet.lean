import HeapLedger.Ledger.Action
import HeapLedger.Proofs.Ends

/-!
# `HeapLedger/Proofs/Ledger/Discreet.lean` — operations that call no handler

A discreet operation has no business with the out-of-memory policy: it leaves the policy as it found
it, and when it stops, it stops at a fault and not at a handler. The forms that report failure are
discreet, and so are all operations by layout (`Action.discreet_perform`).
-/

set_option autoImplicit false

namespace HeapLedger

variable {β α γ : Type}

/-- The policy stays, and no handler is called. -/
def Discreet (op : LedgerOp β α) : Prop :=
  ∀ l, Ends op l (fun _ l' => l'.policy = l.policy) fun e l' =>
    l'.policy = l.policy ∧ ∃ fault, e = .fault fault

namespace Discreet

theorem pure (a : α) : Discreet (pure a : LedgerOp β α) := fun _ => ends_pure.2 rfl

theorem bind {x : LedgerOp β γ} {f : γ → LedgerOp β α} (hx : Discreet x)
    (hf : ∀ c, Discreet (f c)) : Discreet (x >>= f) := by
  intro l
  rw [ends_bind]
  apply (hx l).imp
  · intro c l' hl'
    rw [← hl']
    exact hf c l'
  · intro e l' hstop
    exact hstop

theorem map {x : LedgerOp β γ} (f : γ → α) (hx : Discreet x) : Discreet (f <$> x) := by
  intro l
  rw [ends_map]
  exact hx l

theorem get {f : Ledger β → LedgerOp β α} (hf : ∀ l, Discreet (f l)) :
    Discreet (MonadState.get >>= f) := by
  intro l
  rw [ends_bind]
  exact ends_get.2 (hf l l)

theorem modify {f : Ledger β → Ledger β} (hf : ∀ l, (f l).policy = l.policy) :
    Discreet (modify f : LedgerOp β PUnit) := fun l => ends_modify.2 (hf l)

theorem onHeap (op : HeapOp β α) : Discreet (Ledger.onHeap op) := by
  intro l
  rw [ends_onHeap]
  apply (Ends.self op l.heap).imp
  · intros
    rfl
  · intro fault heap _
    exact ⟨rfl, fault, rfl⟩

theorem emit (events : List Event) : Discreet (Ledger.emit events : LedgerOp β Unit) :=
  .modify fun _ => rfl

theorem charge (bytes : Nat) : Discreet (Ledger.charge bytes : LedgerOp β Unit) :=
  .modify fun _ => rfl

theorem credit (bytes : Nat) : Discreet (Ledger.credit bytes : LedgerOp β Unit) :=
  .modify fun _ => rfl

end Discreet

namespace Ledger

variable (s : Strategy β)

theorem discreet_tryTake (take : Nat → HeapOp β (Option Block)) (size : Nat) :
    Discreet (tryTake take size) := by
  unfold tryTake
  cases Size.request size with
  | error e => exact .pure _
  | ok request =>
    refine (Discreet.onHeap _).bind fun block => ?_
    cases block with
    | none => exact .pure _
    | some block => exact (Discreet.charge _).bind fun _ => .pure _

theorem discreet_tryAllocUsable (size : Nat) : Discreet (tryAllocUsable s size) :=
  discreet_tryTake s.alloc size

theorem discreet_tryAlloc (size : Nat) : Discreet (tryAlloc s size) :=
  (discreet_tryAllocUsable s size).map _

theorem discreet_tryAllocZeroedUsable (size : Nat) : Discreet (tryAllocZeroedUsable s size) :=
  discreet_tryTake s.allocZeroed size

theorem discreet_tryAllocZeroed (size : Nat) : Discreet (tryAllocZeroed s size) :=
  (discreet_tryAllocZeroedUsable s size).map _

theorem discreet_tryAllocZeroedArray (count elem : Nat) :
    Discreet (tryAllocZeroedArray s count elem) := by
  unfold tryAllocZeroedArray
  cases Size.ofArray count elem with
  | error e => exact .pure _
  | ok size => exact discreet_tryAllocZeroed s size

theorem discreet_tryAllocAligned (size align : Nat) : Discreet (tryAllocAligned s size align) := by
  unfold tryAllocAligned
  cases Layout.of? size align with
  | none => exact .pure _
  | some layout =>
    simp only
    cases layout.plainSize s.maxAlign with
    | some plain => exact (discreet_tryAlloc s plain).map _
    | none => exact (discreet_tryTake _ size).map _

theorem discreet_free (ptr : Option Nat) : Discreet (free s ptr) := by
  cases ptr with
  | none => exact .pure ()
  | some p => exact (Discreet.onHeap _).bind fun cost => .credit cost

theorem discreet_freeWithSize (ptr : Option Nat) (usable : Nat) :
    Discreet (freeWithSize s ptr usable) := by
  cases ptr with
  | none => exact .pure ()
  | some p => exact (Discreet.onHeap _).bind fun cost => .credit cost

theorem discreet_tryReallocUsable (ptr : Option Nat) (size : Nat) :
    Discreet (tryReallocUsable s ptr size) := by
  cases ptr with
  | none => exact (discreet_tryAllocUsable s size).map _
  | some p =>
    unfold tryReallocUsable
    simp only
    split
    · exact (discreet_free s _).bind fun _ => .pure _
    cases Size.request size with
    | error e => exact (discreet_free s _).bind fun _ => .pure _
    | ok request =>
      refine (Discreet.onHeap _).bind fun r => ?_
      cases r with
      | none => exact .pure _
      | some resized =>
        exact (Discreet.credit _).bind fun _ => (Discreet.charge _).bind fun _ => .pure _

theorem discreet_tryRealloc (ptr : Option Nat) (size : Nat) : Discreet (tryRealloc s ptr size) :=
  (discreet_tryReallocUsable s ptr size).map _

theorem discreet_pointer? {op : LedgerOp β (Except AllocError Nat)} (h : Discreet op) :
    Discreet (pointer? op) :=
  h.bind fun r => by
    cases r with
    | ok ptr => exact .pure _
    | error e => exact .pure _

theorem discreet_layoutAlloc (layout : Layout) : Discreet (layoutAlloc s layout) :=
  discreet_pointer? (discreet_tryAllocAligned s _ _)

theorem discreet_layoutAllocZeroed (layout : Layout) : Discreet (layoutAllocZeroed s layout) := by
  unfold layoutAllocZeroed
  cases layout.plainSize s.maxAlign with
  | some size => exact discreet_pointer? (discreet_tryAllocZeroed s size)
  | none =>
    refine (discreet_layoutAlloc s layout).bind fun r => ?_
    cases r with
    | none => exact .pure _
    | some ptr => exact (Discreet.onHeap _).bind fun _ => .pure _

theorem discreet_layoutMove (ptr : Option Nat) (layout : Layout) (size : Nat) :
    Discreet (layoutMove s ptr layout size) := by
  refine (discreet_pointer? (discreet_tryAllocAligned s _ _)).bind fun r => ?_
  cases r with
  | none => exact .pure _
  | some new =>
    exact (Discreet.onHeap _).bind fun _ => (discreet_free s ptr).bind fun _ => .pure _

theorem discreet_layoutRealloc (ptr : Option Nat) (layout : Layout) (size : Nat) :
    Discreet (layoutRealloc s ptr layout size) := by
  unfold layoutRealloc
  cases Layout.of? size layout.align with
  | none => exact .pure _
  | some new =>
    simp only
    cases new.plainSize s.maxAlign with
    | none => exact discreet_layoutMove s ptr layout size
    | some plain =>
      simp only
      split
      · exact .pure _
      · refine (discreet_tryRealloc s ptr plain).bind fun r => ?_
        cases r with
        | ok moved => exact .pure _
        | error e => exact .pure _

theorem discreet_adviseUnused (host : Host) (ptr : Option Nat) (hint : Nat) :
    Discreet (adviseUnused s host ptr hint) := by
  cases ptr with
  | none => exact .pure 0
  | some p =>
    unfold adviseUnused
    simp only
    split
    · exact .pure 0
    refine (Discreet.onHeap _).bind fun usable => ?_
    split
    · exact .pure 0
    · refine .get fun l => .bind (.modify fun _ => rfl) fun _ => ?_
      exact (Discreet.emit _).bind fun _ => .pure _

end Ledger

namespace Action

/-- The call that reports the failure which this one leaves to the handler. -/
def attempt : Action → Option Action
  | .alloc .orFail size => some (.alloc .attempt size)
  | .allocUsable .orFail size => some (.allocUsable .attempt size)
  | .allocZeroed .orFail size => some (.allocZeroed .attempt size)
  | .allocZeroedUsable .orFail size => some (.allocZeroedUsable .attempt size)
  | .allocZeroedArray .orFail count elem => some (.allocZeroedArray .attempt count elem)
  | .allocAligned .orFail size align => some (.allocAligned .attempt size align)
  | .realloc .orFail ptr size => some (.realloc .attempt ptr size)
  | .reallocUsable .orFail ptr size => some (.reallocUsable .attempt ptr size)
  | .dupString text => some (.alloc .attempt (text.length + 1))
  | _ => none

/-- The handler that a call installs. -/
def installs : Action → Option OomHandler
  | .setHandler h => some h
  | _ => none

theorem discreet_reported {reply : α → Reply Nat} {op : LedgerOp β (Except AllocError α)}
    (h : Discreet op) : Discreet (reported reply op) :=
  h.bind fun r => by
    cases r with
    | ok a => exact .pure _
    | error e => exact .pure _

open Ledger in
/-- Calls that do not leave failure to the handler never call it. -/
theorem discreet_perform (s : Strategy β) (host : Host) {a : Action} (ha : a.attempt = none)
    (hinstalls : a.installs = none) : Discreet (a.perform s host) := by
  cases a with
  | alloc mode size =>
    cases mode with
    | attempt => exact discreet_reported (discreet_tryAlloc s size)
    | orFail => cases ha
  | allocUsable mode size =>
    cases mode with
    | attempt => exact discreet_reported (discreet_tryAllocUsable s size)
    | orFail => cases ha
  | allocZeroed mode size =>
    cases mode with
    | attempt => exact discreet_reported (discreet_tryAllocZeroed s size)
    | orFail => cases ha
  | allocZeroedUsable mode size =>
    cases mode with
    | attempt => exact discreet_reported (discreet_tryAllocZeroedUsable s size)
    | orFail => cases ha
  | allocZeroedArray mode count elem =>
    cases mode with
    | attempt => exact discreet_reported (discreet_tryAllocZeroedArray s count elem)
    | orFail => cases ha
  | allocAligned mode size align =>
    cases mode with
    | attempt => exact discreet_reported (discreet_tryAllocAligned s size align)
    | orFail => cases ha
  | realloc mode ptr size =>
    cases mode with
    | attempt => exact discreet_reported (discreet_tryRealloc s ptr size)
    | orFail => cases ha
  | reallocUsable mode ptr size =>
    cases mode with
    | attempt => exact discreet_reported (discreet_tryReallocUsable s ptr size)
    | orFail => cases ha
  | dupString text => cases ha
  | free ptr => exact (discreet_free s ptr).map _
  | freeWithSize ptr usable => exact (discreet_freeWithSize s ptr usable).map _
  | adviseUnused ptr hint => exact (discreet_adviseUnused s host ptr hint).map _
  | info => exact (Discreet.get fun _ => .pure _).map _
  | purge => exact ((Discreet.onHeap _).bind fun _ => (Discreet.emit _).bind fun _ => .pure _).map _
  | record => exact .get fun _ => .pure _
  | setHandler h => cases hinstalls
  | handler => exact (Discreet.get fun _ => .pure _).map _
  | layoutAlloc layout => exact (discreet_layoutAlloc s layout).map _
  | layoutAllocZeroed layout => exact (discreet_layoutAllocZeroed s layout).map _
  | layoutRealloc ptr layout size => exact (discreet_layoutRealloc s ptr layout size).map _
  | layoutFree ptr layout => exact (discreet_free s ptr).map _
  | usableSize | allocationSize | setBackgroundThread | blockAlloc | blockAllocZeroed
  | blockAllocAligned | blockRealloc | blockFree | blockFreeWithSize | blockUsableSize
  | blockFootprint => exact (Discreet.onHeap _).map _

end Action

end HeapLedger
