import HeapLedger.Proofs.Atomicity
import HeapLedger.Proofs.Faultless
import HeapLedger.Proofs.Ledger.Insistence

/-!
# `HeapLedger/Proofs/Handlers.lean` — the forms that may not fail

A call that may not fail is the call that reports failure, followed by the handler. Up to the
failure the two are the same in everything: replies, heap, count, and pointers that are out. After
it the handler that was installed last is called once, with the size that the failure reports, and
finds the ledger as the failure left it. Where none was ever installed, that is the default handler.

A resize to nothing is not worth a handler: where it fails, there is no block and that is the reply.
No other call ever gets to a handler.
-/

set_option autoImplicit false

namespace HeapLedger

variable {β : Type}

namespace Action

theorem attempt_of_insists {a : Action} (h : a.insists = false) : a.attempt = none := by
  cases a with
  | alloc mode | allocUsable mode | allocZeroed mode | allocZeroedUsable mode
  | allocZeroedArray mode | allocAligned mode | realloc mode | reallocUsable mode =>
    cases mode with
    | attempt => rfl
    | orFail => cases h
  | dupString text => cases h
  | _ => rfl

end Action

namespace Desk

/-- The handlers that a history has installed, in order. -/
def installed (ms : List Move) : List OomHandler :=
  ms.filterMap fun
    | .call a => a.installs
    | _ => none

section Policy

variable (s : Strategy β) (host : Host)

theorem policy_answer (d : Desk β) (a : Action) :
    (d.answer s host a).2.policy.current = a.installs.getD d.ledger.policy.current := by
  unfold answer
  cases hinstalls : a.installs with
  | some h =>
    unfold Action.installs at hinstalls
    split at hinstalls
    · cases hinstalls
      rfl
    · cases hinstalls
  | none =>
    cases hattempt : a.attempt with
    | none =>
      have hdiscreet := Action.discreet_perform s host hattempt hinstalls d.ledger
      cases hrun : a.perform s host d.ledger with
      | ok r l => exact congrArg OomPolicy.current (hdiscreet.of_ok hrun)
      | error e l => exact congrArg OomPolicy.current (hdiscreet.of_error hrun).1
    | some t =>
      have ht := Action.attemptOf hattempt
      have hdiscreet := Action.discreet_perform s host ht.attempt ht.installs d.ledger
      rw [Action.perform_insisted s host d.ledger hattempt]
      cases hrun : t.perform s host d.ledger with
      | ok r l =>
        have hpolicy := congrArg OomPolicy.current (hdiscreet.of_ok hrun)
        cases r with
        | failed e =>
          cases hexcuse : a.excuse with
          | some reply =>
            rw [Action.insisted_excused hexcuse]
            exact hpolicy
          | none =>
            rw [Action.insisted_failed hexcuse]
            exact hpolicy
        | _ => exact hpolicy
      | error e l => exact congrArg OomPolicy.current (hdiscreet.of_error hrun).1

/-- The handler in force is the one that was installed last. -/
theorem policy_run (d : Desk β) (ms : List Move) :
    (run s host d ms).ledger.policy.current =
      (installed ms).getLast?.getD d.ledger.policy.current := by
  induction ms generalizing d with
  | nil => rfl
  | cons m ms ih =>
    unfold run
    rw [ih]
    cases m with
    | call a =>
      have hstep : (d.after s host (.call a)).ledger.policy.current =
        a.installs.getD d.ledger.policy.current := policy_answer s host d a
      rw [hstep]
      unfold installed
      cases hinstalls : a.installs with
      | none => simp [hinstalls]
      | some h => simp [hinstalls, List.getLast?_cons]
    | write memory => rfl
    | switch thread => rfl
    | claim thread => rfl
    | retire thread => rfl

end Policy

/-- A call that may not fail gives up and hands out what its attempt does. -/
theorem answer_attempt (s : Strategy β) (host : Host) (d : Desk β) {a t : Action}
    (ha : a.attempt = some t) :
    a.gone (d.answer s host a).1 = t.gone (d.answer s host t).1 ∧
      (d.answer s host a).1.came = (d.answer s host t).1.came := by
  have hsame := Action.attemptOf ha
  unfold answer
  rw [Action.perform_insisted s host d.ledger ha, ← hsame.gone]
  cases hrun : t.perform s host d.ledger with
  | ok r l =>
    cases r with
    | failed e =>
      cases hexcuse : a.excuse with
      | some reply =>
        rw [Action.insisted_excused hexcuse]
        refine ⟨?_, Action.excuse_came hexcuse⟩
        have hspent := Action.spent_of_excuse s host d.ledger ha hexcuse hrun
        exact (Action.gone_eq_none hspent _).trans (Action.gone_eq_none hspent _).symm
      | none =>
        rw [Action.insisted_failed hexcuse]
        exact ⟨rfl, rfl⟩
    | _ => exact ⟨rfl, rfl⟩
  | error e l => exact ⟨rfl, rfl⟩

/-- At any desk, after any history: a call that may not fail is its attempt up to the handler that
was installed last, or the default one if none was. -/
theorem insisting_is_attempting (s : Strategy β) (host : Host) (l : Ledger β) (live : Finset Nat)
    (ms : List Move) :
    let d := run s host ⟨{ l with policy := {} }, live⟩ ms
    let h := (installed ms).getLast?.getD .abort
    (∀ a t : Action, a.attempt = some t →
      a.perform s host d.ledger = a.insisted h (t.perform s host d.ledger) ∧
        (d.after s host (.call a)).live = (d.after s host (.call t)).live) ∧
      ∀ a : Action, a.insists = false → ∀ handler size l',
        a.perform s host d.ledger ≠ .error (.outOfMemory handler size) l' := by
  intro d h
  have hpolicy : d.ledger.policy.current = h := policy_run s host _ ms
  constructor
  · intro a t ha
    obtain ⟨hgone, hcame⟩ := answer_attempt s host d ha
    constructor
    · rw [← hpolicy]
      exact Action.perform_insisted s host d.ledger ha
    · show (d.live \ (a.gone (d.answer s host a).1).toFinset) ∪
          (d.answer s host a).1.came.toFinset = _
      rw [hgone, hcame]
      rfl
  · intro a ha handler size l' hrun
    cases hinstalls : a.installs with
    | none =>
      have hdiscreet := Action.discreet_perform s host (Action.attempt_of_insists ha) hinstalls
      obtain ⟨-, fault, hfault⟩ := (hdiscreet d.ledger).of_error hrun
      cases hfault
    | some h' =>
      unfold Action.installs at hinstalls
      split at hinstalls
      · cases hrun
      · cases hinstalls

/-- In an arena that gives out blocks of at most 4096 bytes, two handlers are installed and a block
is to be resized to ten thousand bytes. The second handler is called with that number, and the block
is still out. -/
theorem insisting_is_attempting_arena :
    let s := Strategy.headered ((Arena.full {}).toBackend.capped 4096)
    let d := run s .unsupported (opening arenaHeap 4) [.call (.setHandler (.custom "first")),
      .call (.alloc .attempt 16), .call (.setHandler (.custom "last"))]
    let a := Action.realloc .orFail (some (Arena.base + 16)) 10000
    (∃ l, a.perform s .unsupported d.ledger = .error (.outOfMemory (.custom "last") 10000) l) ∧
      (d.after s .unsupported (.call a)).live = {Arena.base + 16} := by
  intro s d a
  obtain ⟨hforms, -⟩ := insisting_is_attempting s .unsupported (.new arenaHeap 4) ∅
    [.call (.setHandler (.custom "first")), .call (.alloc .attempt 16),
      .call (.setHandler (.custom "last"))]
  obtain ⟨hrun, hlive⟩ := hforms a _ rfl
  have hfails : (d.answer s .unsupported
      (.realloc .attempt (some (Arena.base + 16)) 10000)).1 =
        .ok (.failed (.exhausted 10000)) := by
    decide +kernel
  obtain ⟨l, hattempt⟩ := perform_of_answer hfails
  constructor
  · exact ⟨_, hrun.trans (congrArg _ hattempt)⟩
  · have hsame : (d.after s .unsupported (.call a)).live =
        (d.after s .unsupported (.call (.realloc .attempt (some (Arena.base + 16)) 10000))).live :=
      hlive
    rw [hsame]
    decide +kernel

end Desk

end HeapLedger
