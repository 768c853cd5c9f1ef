import HeapLedger.Proofs.Ledger.Discreet
import HeapLedger.Proofs.Ledger.Orders
import HeapLedger.Proofs.Ledger.Outcome

/-!
# `HeapLedger/Proofs/Ledger/Insistence.lean` — calls that may not fail

A call that may not fail is a call that reports failure (`Action.attempt`), followed by something
that deals with the report. `Action.insisted` is that something: it calls the handler, or it makes
an excuse where there is one. `perform_insisted` says so of every such call.
-/

set_option autoImplicit false

namespace HeapLedger

variable {β α γ : Type}

namespace Action

/-- The reply of a resize to nothing that fails. -/
def excuse : Action → Option (Reply Nat)
  | .realloc .orFail _ 0 => some (.pointer none)
  | .reallocUsable .orFail _ 0 => some (.sized none 0)
  | _ => none

/-- What a call writes to the block that it has got. -/
def fill : Action → Reply Nat → Memory → Memory
  | .dupString text, .pointer (some ptr), m => m.store ptr (text ++ [0]).toArray
  | _, _, m => m

/-- The ending of a call that may not fail, from the ending of the attempt. -/
def insisted (a : Action) (handler : OomHandler) :
    EStateM.Result Halt (Ledger β) (Reply Nat) → EStateM.Result Halt (Ledger β) (Reply Nat)
  | .ok (.failed e) l =>
      match a.excuse with
      | some reply => .ok reply l
      | none =>
          .error (.outOfMemory handler e.requested)
            { l with log := l.log ++ handler.events e.requested }
  | .ok r l => .ok r { l with heap := ⟨a.fill r l.heap.memory, l.heap.state⟩ }
  | .error e l => .error e l

/-- The attempt, with a value in place of a failure. -/
def forgiven (x : α) (op : LedgerOp β (Except AllocError α)) : LedgerOp β α := do
  match ← op with
  | .ok y => pure y
  | .error _ => pure x

/-! ## Calls and their attempts -/

section Endings

variable {a : Action} {handler : OomHandler} {l : Ledger β} {r : Reply Nat} {e : AllocError}

theorem insisted_ok (hr : ∀ e, r ≠ .failed e) :
    a.insisted handler (.ok r l) =
      .ok r { l with heap := ⟨a.fill r l.heap.memory, l.heap.state⟩ } := by
  cases r with
  | failed e => exact absurd rfl (hr e)
  | _ => rfl

theorem insisted_failed (ha : a.excuse = none) :
    a.insisted handler (.ok (.failed e) l) =
      .error (.outOfMemory handler e.requested)
        { l with log := l.log ++ handler.events e.requested } := by
  unfold insisted
  simp only [ha]

theorem insisted_excused (ha : a.excuse = some r) :
    a.insisted handler (.ok (.failed e) l) = .ok r l := by
  unfold insisted
  simp only [ha]

end Endings

section Forms

variable {a : Action} {reply : α → Reply Nat} {op : LedgerOp β (Except AllocError α)}
  {l l' : Ledger β} {x y : α} {e : AllocError} {halt : Halt}

theorem orFail_ok (hrun : op l = .ok (.ok x) l') : Ledger.orFail op l = .ok x l' :=
  run_bind_ok hrun

/-- The handler is called with what the failure reports, and finds the ledger as it was left. -/
theorem orFail_failed (hrun : op l = .ok (.error e) l') :
    Ledger.orFail op l = .error (.outOfMemory l'.policy.current e.requested)
      { l' with log := l'.log ++ l'.policy.current.events e.requested } :=
  run_bind_ok hrun

theorem orFail_error (hrun : op l = .error halt l') : Ledger.orFail op l = .error halt l' :=
  run_bind_error hrun

theorem forgiven_ok (hrun : op l = .ok (.ok y) l') : forgiven x op l = .ok y l' :=
  run_bind_ok hrun

theorem forgiven_failed (hrun : op l = .ok (.error e) l') : forgiven x op l = .ok x l' :=
  run_bind_ok hrun

theorem forgiven_error (hrun : op l = .error halt l') : forgiven x op l = .error halt l' :=
  run_bind_error hrun

theorem map_orFail (f : α → γ) (op : LedgerOp β (Except AllocError α)) :
    f <$> Ledger.orFail op = Ledger.orFail (Except.map f <$> op) := by
  funext l
  cases hrun : op l with
  | ok r l' =>
    have hmap := run_map_ok (Except.map f) hrun
    cases r with
    | ok x => rw [run_map_ok f (orFail_ok hrun), orFail_ok hmap]
    | error e => rw [run_map_error f (orFail_failed hrun), orFail_failed hmap]
  | error e l' =>
    have hmap := run_map_error (Except.map f) hrun
    rw [run_map_error f (orFail_error hrun), orFail_error hmap]

theorem map_forgiven (f : α → γ) (x : α) (op : LedgerOp β (Except AllocError α)) :
    f <$> forgiven x op = forgiven (f x) (Except.map f <$> op) := by
  funext l
  cases hrun : op l with
  | ok r l' =>
    have hmap := run_map_ok (Except.map f) hrun
    cases r with
    | ok y => rw [run_map_ok f (forgiven_ok hrun), forgiven_ok hmap]
    | error e => rw [run_map_ok f (forgiven_failed hrun), forgiven_failed hmap]
  | error e l' =>
    have hmap := run_map_error (Except.map f) hrun
    rw [run_map_error f (forgiven_error hrun), forgiven_error hmap]

/-- A failure is handed to the handler in force, and everything else is as it was. -/
theorem orFail_insisted (hop : Discreet op) (hexcuse : a.excuse = none)
    (hfill : ∀ x m, a.fill (reply x) m = m) (hreply : ∀ x e, reply x ≠ .failed e) :
    (reply <$> Ledger.orFail op) l = a.insisted l.policy.current (reported reply op l) := by
  cases hrun : op l with
  | ok r l' =>
    cases r with
    | ok x =>
      rw [run_map_ok reply (orFail_ok hrun), reported_ok hrun, insisted_ok (hreply x), hfill]
    | error e =>
      have hpolicy : l'.policy = l.policy := (hop l).of_ok hrun
      rw [run_map_error reply (orFail_failed hrun), reported_failed hrun, insisted_failed hexcuse,
        hpolicy]
  | error e l' =>
    rw [run_map_error reply (orFail_error hrun), reported_error hrun]
    rfl

/-- A failure that is not worth a handler becomes a reply of its own. -/
theorem forgiven_insisted {handler : OomHandler} (hexcuse : a.excuse = some (reply x))
    (hfill : ∀ x m, a.fill (reply x) m = m) (hreply : ∀ x e, reply x ≠ .failed e) :
    (reply <$> forgiven x op) l = a.insisted handler (reported reply op l) := by
  cases hrun : op l with
  | ok r l' =>
    cases r with
    | ok y =>
      rw [run_map_ok reply (forgiven_ok hrun), reported_ok hrun, insisted_ok (hreply y), hfill]
    | error e =>
      rw [run_map_ok reply (forgiven_failed hrun), reported_failed hrun, insisted_excused hexcuse]
  | error e l' =>
    rw [run_map_error reply (forgiven_error hrun), reported_error hrun]
    rfl

end Forms

section Calls

variable (s : Strategy β) (host : Host) (l : Ledger β) (ptr : Option Nat)

theorem alloc_eq (size : Nat) : Ledger.alloc s size = Ledger.orFail (Ledger.tryAlloc s size) :=
  map_orFail _ _

theorem allocZeroed_eq (size : Nat) :
    Ledger.allocZeroed s size = Ledger.orFail (Ledger.tryAllocZeroed s size) :=
  map_orFail _ _

theorem reallocUsable_zero :
    Ledger.reallocUsable s ptr 0 = forgiven (none, 0) (Ledger.tryReallocUsable s ptr 0) := by
  unfold Ledger.reallocUsable forgiven
  apply congrArg (Ledger.tryReallocUsable s ptr 0 >>= ·)
  funext r
  cases r <;> rfl

theorem reallocUsable_succ (n : Nat) :
    Ledger.reallocUsable s ptr (n + 1) = Ledger.orFail (Ledger.tryReallocUsable s ptr (n + 1)) := by
  unfold Ledger.reallocUsable Ledger.orFail
  apply congrArg (Ledger.tryReallocUsable s ptr (n + 1) >>= ·)
  funext r
  cases r <;> rfl

theorem realloc_zero :
    Ledger.realloc s ptr 0 = forgiven none (Ledger.tryRealloc s ptr 0) := by
  unfold Ledger.realloc
  rw [reallocUsable_zero, map_forgiven]
  rfl

theorem realloc_succ (n : Nat) :
    Ledger.realloc s ptr (n + 1) = Ledger.orFail (Ledger.tryRealloc s ptr (n + 1)) := by
  unfold Ledger.realloc
  rw [reallocUsable_succ, map_orFail]
  rfl

/-- A string is copied into what an allocation of its length and one more has come to. -/
theorem dupString_insisted (text : List UInt8) :
    (Action.dupString text).perform s host l =
      (Action.dupString text).insisted l.policy.current
        ((Action.alloc .attempt (text.length + 1)).perform s host l) := by
  have hdiscreet := Ledger.discreet_tryAlloc s (text.length + 1)
  show (pointerReply <$> Ledger.dupString s text) l =
    (Action.dupString text).insisted l.policy.current
      (reported pointerReply (Ledger.tryAlloc s (text.length + 1)) l)
  unfold Ledger.dupString
  rw [alloc_eq]
  cases hrun : Ledger.tryAlloc s (text.length + 1) l with
  | ok r l' =>
    cases r with
    | ok x =>
      rw [reported_ok hrun]
      apply run_map_ok
      exact run_bind_ok (orFail_ok hrun)
    | error e =>
      have hpolicy : l'.policy = l.policy := (hdiscreet l).of_ok hrun
      rw [reported_failed hrun, insisted_failed rfl, ← hpolicy]
      apply run_map_error
      exact run_bind_error (orFail_failed hrun)
  | error e l' =>
    rw [reported_error hrun]
    apply run_map_error
    exact run_bind_error (orFail_error hrun)

open Ledger in
/-- A call that may not fail comes to what its attempt comes to, up to the handler. -/
theorem perform_insisted {a t : Action} (ha : a.attempt = some t) :
    a.perform s host l = a.insisted l.policy.current (t.perform s host l) := by
  have hpointer : ∀ x e, pointerReply x ≠ .failed e := fun _ _ h => nomatch h
  have hsized : ∀ x e, sizedReply x ≠ .failed e := fun _ _ h => nomatch h
  cases a with
  | alloc mode size =>
    cases mode with
    | attempt => cases ha
    | orFail =>
      cases ha
      show (pointerReply <$> Ledger.alloc s size) l = _
      rw [alloc_eq]
      exact orFail_insisted (discreet_tryAlloc s size) rfl (fun _ _ => rfl) hpointer
  | allocUsable mode size =>
    cases mode with
    | attempt => cases ha
    | orFail =>
      cases ha
      exact orFail_insisted (discreet_tryAllocUsable s size) rfl (fun _ _ => rfl) hsized
  | allocZeroed mode size =>
    cases mode with
    | attempt => cases ha
    | orFail =>
      cases ha
      show (pointerReply <$> Ledger.allocZeroed s size) l = _
      rw [allocZeroed_eq]
      exact orFail_insisted (discreet_tryAllocZeroed s size) rfl (fun _ _ => rfl) hpointer
  | allocZeroedUsable mode size =>
    cases mode with
    | attempt => cases ha
    | orFail =>
      cases ha
      exact orFail_insisted (discreet_tryAllocZeroedUsable s size) rfl (fun _ _ => rfl) hsized
  | allocZeroedArray mode count elem =>
    cases mode with
    | attempt => cases ha
    | orFail =>
      cases ha
      exact orFail_insisted (discreet_tryAllocZeroedArray s count elem) rfl (fun _ _ => rfl)
        hpointer
  | allocAligned mode size align =>
    cases mode with
    | attempt => cases ha
    | orFail =>
      cases ha
      exact orFail_insisted (discreet_tryAllocAligned s size align) rfl (fun _ _ => rfl) hpointer
  | realloc mode ptr size =>
    cases mode with
    | attempt => cases ha
    | orFail =>
      cases ha
      show (Reply.pointer <$> Ledger.realloc s ptr size) l = _
      cases size with
      | zero =>
        rw [realloc_zero]
        exact forgiven_insisted rfl (fun _ _ => rfl) fun _ _ h => nomatch h
      | succ n =>
        rw [realloc_succ]
        exact orFail_insisted (discreet_tryRealloc s ptr _) rfl (fun _ _ => rfl) fun _ _ h =>
          nomatch h
  | reallocUsable mode ptr size =>
    cases mode with
    | attempt => cases ha
    | orFail =>
      cases ha
      show ((fun r => Reply.sized r.1 r.2) <$> Ledger.reallocUsable s ptr size) l = _
      cases size with
      | zero =>
        rw [reallocUsable_zero]
        exact forgiven_insisted rfl (fun _ _ => rfl) fun _ _ h => nomatch h
      | succ n =>
        rw [reallocUsable_succ]
        exact orFail_insisted (discreet_tryReallocUsable s ptr _) rfl (fun _ _ => rfl) fun _ _ h =>
          nomatch h
  | dupString text =>
    cases ha
    exact dupString_insisted s host l text
  | _ => cases ha

/-- Attempts and the calls they stand for are alike in what they give up and install. -/
structure AttemptOf (t a : Action) : Prop where
  attempt : t.attempt = none
  installs : t.installs = none
  installs_insisting : a.installs = none
  gone : ∀ e, a.gone e = t.gone e

theorem attemptOf {a t : Action} (ha : a.attempt = some t) : t.AttemptOf a := by
  cases a with
  | alloc mode | allocUsable mode | allocZeroed mode | allocZeroedUsable mode
  | allocZeroedArray mode | allocAligned mode | realloc mode | reallocUsable mode =>
    cases mode with
    | attempt => cases ha
    | orFail =>
      cases ha
      exact ⟨rfl, rfl, rfl, fun _ => rfl⟩
  | dupString text =>
    cases ha
    exact ⟨rfl, rfl, rfl, fun _ => rfl⟩
  | _ => cases ha

/-- A block that is resized to nothing is freed, and that does not fail. -/
theorem tryReallocUsable_freed (p : Nat) :
    Ends (Ledger.tryReallocUsable s (some p) 0) l (fun r _ => r = .ok (none, 0))
      fun _ _ => True := by
  rw [Ledger.tryReallocUsable_zero, ends_bind]
  apply (Ends.self (Ledger.free s (some p)) l).imp
  · intros
    exact ends_pure.2 rfl
  · intros
    trivial

/-- What is excused when it fails gave nothing up. -/
theorem spent_of_excuse {a t : Action} {reply : Reply Nat} {l' : Ledger β} {e : AllocError}
    (ha : a.attempt = some t) (hexcuse : a.excuse = some reply)
    (hrun : t.perform s host l = .ok (.failed e) l') : a.spent = none := by
  unfold excuse at hexcuse
  split at hexcuse
  case h_1 ptr =>
    cases ha
    cases ptr with
    | none => rfl
    | some p =>
      have hfreed : Ends (reported Reply.pointer (Ledger.tryRealloc s (some p) 0)) l
          (fun r _ => r = .pointer none) fun _ _ => True := by
        unfold reported Ledger.tryRealloc
        rw [ends_bind, ends_map]
        apply (tryReallocUsable_freed s l p).mono
        rintro _ _ rfl
        exact ends_pure.2 rfl
      cases hfreed.of_ok hrun
  case h_2 ptr =>
    cases ha
    cases ptr with
    | none => rfl
    | some p =>
      have hfreed : Ends (reported (fun r => .sized r.1 r.2)
          (Ledger.tryReallocUsable s (some p) 0)) l (fun r _ => r = .sized none 0)
            fun _ _ => True := by
        unfold reported
        rw [ends_bind]
        apply (tryReallocUsable_freed s l p).mono
        rintro _ _ rfl
        exact ends_pure.2 rfl
      cases hfreed.of_ok hrun
  case h_3 => cases hexcuse

theorem gone_eq_none {a : Action} (h : a.spent = none) (e : Ending) : a.gone e = none := by
  cases hgone : a.gone e with
  | none => rfl
  | some p =>
    unfold gone at hgone
    split at hgone
    · rw [spent_of_forfeit hgone] at h
      cases h
    · rw [hgone] at h
      cases h

/-- Nobody is handed a pointer with an excuse. -/
theorem excuse_came {a : Action} {reply : Reply Nat} (hexcuse : a.excuse = some reply) :
    Ending.came (.ok reply) = none := by
  unfold excuse at hexcuse
  split at hexcuse
  · cases hexcuse
    rfl
  · cases hexcuse
    rfl
  · cases hexcuse

end Calls

end Action

end HeapLedger
