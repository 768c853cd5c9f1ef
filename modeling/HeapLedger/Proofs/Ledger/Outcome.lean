import HeapLedger.Ledger.Action
import HeapLedger.Proofs.Ledger.Layouts

/-!
# `HeapLedger/Proofs/Ledger/Outcome.lean` — what a call can come to

Every call of a ledger's interface is one posting, and which pointers it is about can be read off
the call and the way it ends: `Action.gone` is the pointer that is given up, `Ending.came` the one
that is handed out. A call that fails gives nothing up, except for a resize to a size that is
refused (`Action.forfeit`).

`Action.Outcome` lists the ways for a call to end. Besides the posting there are two: pages of a
block that are taken back by the host lose their content, and a backend may break its word about an
alignment.

The block actions of a session go past the ledger and are not calls in this sense
(`Action.booked`).
-/

set_option autoImplicit false

namespace HeapLedger

/-- How a call ends: with a reply, or halted. -/
abbrev Ending : Type := Except Halt (Reply Nat)

namespace Ending

/-- The pointer that a call hands out, by its ending. -/
def came : Ending → Option Nat
  | .ok (.pointer ptr) => ptr
  | .ok (.sized ptr _) => ptr
  | _ => none

/-- The usable bytes that a call tells, by its ending. -/
def told : Ending → Option Nat
  | .ok (.sized _ usable) => some usable
  | _ => none

/-- The ending tells of a pointer and its bytes what they are. -/
def Answers (e : Ending) (came : Option (Nat × Holding)) : Prop :=
  came.map Prod.fst = e.came ∧ ∀ c ∈ came, ∀ u ∈ e.told, u = c.2.usable

variable {came : Option (Nat × Holding)} {ptr : Option Nat} {usable : Nat}

theorem answers_pointer (h : came.map Prod.fst = ptr) : Answers (.ok (.pointer ptr)) came :=
  ⟨h, fun _ _ _ hu => nomatch hu⟩

theorem answers_sized (h : came.map Prod.fst = ptr) (husable : ∀ c ∈ came, usable = c.2.usable) :
    Answers (.ok (.sized ptr usable)) came := by
  refine ⟨h, fun c hc u hu => ?_⟩
  cases hu
  exact husable c hc

theorem answers_none {e : Ending} (h : e.came = none) : Answers e none :=
  ⟨h.symm, fun _ hc => nomatch hc⟩

end Ending

namespace Action

/-- The call is one of the ledger and not of the strategy below it. -/
def booked : Action → Bool
  | .blockAlloc _ | .blockAllocZeroed _ | .blockAllocAligned _ _ | .blockRealloc _ _ | .blockFree _
  | .blockFreeWithSize _ _ | .blockUsableSize _ | .blockFootprint _ => false
  | _ => true

/-- The pointer that the caller passes, if any. -/
def pointer? : Action → Option Nat
  | .realloc _ ptr _ | .reallocUsable _ ptr _ | .free ptr | .freeWithSize ptr _
  | .adviseUnused ptr _ | .layoutRealloc ptr _ _ | .layoutFree ptr _ => ptr
  | .usableSize ptr | .allocationSize ptr => some ptr
  | _ => none

/-- Memory is asked for by layout, where failure is the absence of a pointer. -/
def byLayout : Action → Bool
  | .layoutAlloc _ | .layoutAllocZeroed _ | .layoutRealloc _ _ _ => true
  | _ => false

/-- The call did not do what it was called for. -/
def fails (a : Action) : Ending → Bool
  | .error _ => true
  | .ok (.failed _) => true
  | .ok (.pointer none) => a.byLayout
  | _ => false

/-- What a call gives up that does what it was called for. -/
def spent : Action → Option Nat
  | .realloc _ ptr _ | .reallocUsable _ ptr _ | .free ptr | .freeWithSize ptr _
  | .layoutRealloc ptr _ _ | .layoutFree ptr _ => ptr
  | _ => none

/-- What a call gives up although it fails. -/
def forfeit : Action → Option Nat
  | .realloc _ ptr size | .reallocUsable _ ptr size =>
      if Size.tooLarge size = true then ptr else none
  | _ => none

/-- The pointer that a call gives up, by its ending. -/
def gone (a : Action) (e : Ending) : Option Nat :=
  if a.fails e = true then a.forfeit else a.spent

/-- Elsewhere no pointer is just what was asked for. -/
theorem fails_pointer {a : Action} (hlayout : a.byLayout = false) (ptr : Option Nat) :
    a.fails (.ok (.pointer ptr)) = false := by
  cases ptr with
  | none => exact hlayout
  | some q => rfl

/-- What is given up in failure would have been given up in success. -/
theorem spent_of_forfeit {a : Action} {p : Nat} (h : a.forfeit = some p) : a.spent = some p := by
  unfold forfeit at h
  split at h
  · split at h
    · exact h
    · cases h
  · split at h
    · exact h
    · cases h
  · cases h

/-- Nobody gives up what they do not pass. -/
theorem pointer_of_gone {a : Action} {e : Ending} {p : Nat} (h : a.gone e = some p) :
    a.pointer? = some p := by
  have hspent : a.spent = some p := by
    unfold gone at h
    split at h
    · exact spent_of_forfeit h
    · exact h
  unfold spent at hspent
  split at hspent
  · exact hspent
  · exact hspent
  · exact hspent
  · exact hspent
  · exact hspent
  · exact hspent
  · cases hspent

variable {β : Type} {s : Strategy β}

/-- How a call can end. -/
inductive Outcome (k : s.Contract) (hs : Holdings) (l : Ledger β) (a : Action) :
    Ending → Ledger β → Prop
  /-- Pointers are given up and handed out as the ending says, and counted. -/
  | posted {e : Ending} {l' : Ledger β} (came : Option (Nat × Holding)) (hcame : e.Answers came)
      (hpost : Ledger.Posts k.toCustody hs (a.gone e) came l l') : Outcome k hs l a e l'
  /-- The host has taken pages of a block back. -/
  | advised {p hint n : Nat} {d : Holding} {m : Memory} {l' : Ledger β}
      (haction : a = .adviseUnused (some p) hint) (hp : hs p = some d)
      (hm : ∀ x, m.byte x ≠ l.heap.memory.byte x → p ≤ x ∧ x < p + d.usable)
      (hheap : l'.heap = ⟨m, l.heap.state⟩) (hcounter : l'.counter = l.counter)
      (hthreads : l'.threads = l.threads) : Outcome k hs l a (.ok (.bytes n)) l'
  /-- The backend has handed out a block without the alignment it was asked for. -/
  | astray {e : Halt} {l' : Ledger β} (hforfeit : a.forfeit = none)
      (h : Ledger.Astray k l e l') : Outcome k hs l a (.error e) l'

/-! ## Endings of each form

The lemmas below turn what an operation of the ledger posts into the outcome of the call that it
stands for. -/

/-- How an attempt ends whose result is made into the reply to a call. -/
def Settles {α : Type} (k : s.Contract) (hs : Holdings) (l : Ledger β) (a : Action)
    (reply : α → Reply Nat) : Except AllocError α → Ledger β → Prop
  | .ok x, l' => a.fails (.ok (reply x)) = false ∧ ∃ came,
      Ending.Answers (.ok (reply x)) came ∧ Ledger.Posts k.toCustody hs a.spent came l l'
  | .error _, l' => Ledger.Posts k.toCustody hs a.forfeit none l l'

section Forms

variable {k : s.Contract} {hs : Holdings} {l l' : Ledger β} {a : Action} {ptr : Option Nat}
  {size : Nat}

theorem Outcome.of_ok {r : Reply Nat} (came : Option (Nat × Holding))
    (hfails : a.fails (.ok r) = false) (hcame : Ending.Answers (.ok r) came)
    (hpost : Ledger.Posts k.toCustody hs a.spent came l l') : Outcome k hs l a (.ok r) l' := by
  refine .posted came hcame ?_
  rw [gone, hfails]
  exact hpost

theorem Outcome.of_failed {e : Ending} (hfails : a.fails e = true) (hcame : e.came = none)
    (hpost : Ledger.Posts k.toCustody hs a.forfeit none l l') : Outcome k hs l a e l' := by
  refine .posted none (Ending.answers_none hcame) ?_
  rw [gone, hfails]
  exact hpost

theorem Outcome.of_spent {r : Reply Nat} (hspent : a.spent = ptr)
    (hfails : a.fails (.ok r) = false) (hcame : Ending.came (.ok r) = none)
    (hpost : Ledger.Posts k.toCustody hs ptr none l l') : Outcome k hs l a (.ok r) l' := by
  subst hspent
  exact .of_ok none hfails (Ending.answers_none hcame) hpost

/-- A call that hands nothing out and gives nothing up. -/
theorem Outcome.of_still {r : Reply Nat} (hspent : a.spent = none) (hforfeit : a.forfeit = none)
    (hcame : Ending.came (.ok r) = none) (hpost : Ledger.Posts k.toCustody hs none none l l') :
    Outcome k hs l a (.ok r) l' := by
  refine .posted none (Ending.answers_none hcame) ?_
  rw [gone, hspent, hforfeit, ite_self]
  exact hpost

theorem reported_ends {α : Type} {reply : α → Reply Nat} {op : LedgerOp β (Except AllocError α)}
    (h : Ends op l (Settles k hs l a reply) fun e => Outcome k hs l a (.error e)) :
    Ends (reported reply op) l (fun r => Outcome k hs l a (.ok r))
      fun e => Outcome k hs l a (.error e) := by
  unfold reported
  rw [ends_bind]
  refine h.mono fun r l' hr => ?_
  cases r with
  | ok x =>
    obtain ⟨hfails, came, hcame, hpost⟩ := hr
    exact ends_pure.2 (.of_ok came hfails hcame hpost)
  | error e => exact ends_pure.2 (.of_failed rfl rfl hr)

theorem orFail_ends {α : Type} (reply : α → Reply Nat) {op : LedgerOp β (Except AllocError α)}
    (h : Ends op l (Settles k hs l a reply) fun e => Outcome k hs l a (.error e)) :
    Ends (Ledger.orFail op) l (fun x => Outcome k hs l a (.ok (reply x)))
      fun e => Outcome k hs l a (.error e) := by
  refine Ledger.orFail_ends h ?_ ?_
  · intro x l' hdone
    obtain ⟨hfails, came, hcame, hpost⟩ := hdone
    exact .of_ok came hfails hcame hpost
  · intro e l' hpost
    exact .of_failed rfl rfl (hpost.congr rfl rfl rfl)

theorem settles_given {r : Except AllocError Nat} (hspent : a.spent = none)
    (hforfeit : a.forfeit = none) (h : Ledger.Given k.toCustody hs size l r l') :
    Settles k hs l a pointerReply r l' := by
  unfold Settles
  rw [hspent, hforfeit]
  cases r with
  | error e => exact h
  | ok q =>
    obtain ⟨e, hpost, -⟩ := h
    exact ⟨rfl, some (q, e), Ending.answers_pointer rfl, hpost⟩

theorem settles_granted {r : Except AllocError (Nat × Nat)} {reply : Nat × Nat → Reply Nat}
    (hspent : a.spent = none) (hforfeit : a.forfeit = none)
    (hfails : ∀ b, a.fails (.ok (reply b)) = false)
    (hreply : ∀ b e, b.2 = e.usable → Ending.Answers (.ok (reply b)) (some (b.1, e)))
    (h : Ledger.Granted k.toCustody hs size l r l') : Settles k hs l a reply r l' := by
  unfold Settles
  rw [hspent, hforfeit]
  cases r with
  | error e => exact h
  | ok b =>
    obtain ⟨e, hpost, husable, -⟩ := h
    exact ⟨hfails b, some (b.1, e), hreply b e husable, hpost⟩

theorem settles_resettled {α : Type} {r : Except AllocError (Option Nat × Nat)}
    (f : Option Nat × Nat → α) (reply : α → Reply Nat) (hspent : a.spent = ptr)
    (hforfeit : a.forfeit = if Size.tooLarge size = true then ptr else none)
    (hfails : ∀ b, a.fails (.ok (reply (f b))) = false)
    (hreply : ∀ b came, came.map Prod.fst = b.1 → (∀ c ∈ came, b.2 = c.2.usable) →
      Ending.Answers (.ok (reply (f b))) came)
    (h : Ledger.Resettled k.toCustody hs ptr size l r l') :
    Settles k hs l a reply (r.map f) l' := by
  unfold Settles
  rw [hspent, hforfeit]
  cases r with
  | error e => exact h.1
  | ok b =>
    obtain ⟨came, hptr, hpost, -, husable⟩ := h
    exact ⟨hfails b, came, hreply b came hptr fun c hc => (husable c hc).1, hpost⟩

theorem outcome_offered {gone r : Option Nat} (hlayout : a.byLayout = true)
    (hspent : a.spent = gone) (hforfeit : a.forfeit = none)
    (h : Ledger.Offered k.toCustody hs gone size l r l') :
    Outcome k hs l a (.ok (.pointer r)) l' := by
  cases r with
  | none =>
    refine .of_failed hlayout rfl ?_
    rw [hforfeit]
    exact h
  | some q =>
    obtain ⟨e, hpost, -⟩ := h
    refine .of_ok (some (q, e)) rfl (Ending.answers_pointer rfl) ?_
    rw [hspent]
    exact hpost

end Forms

end Action

end HeapLedger
